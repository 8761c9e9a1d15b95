import StorageUpgrade.Report.Comparison

/-!
# How to install shell completions

The steps for each shell, as a short text, as JSON or as CSV.
-/
namespace StorageUpgrade.Report

def programName : String := "storage-delta"

inductive Shell where
  | bash
  | elvish
  | fish
  | powershell
  | zsh
  deriving DecidableEq

namespace Shell

def all : List Shell := [bash, elvish, fish, powershell, zsh]

def name : Shell → String
  | bash => "bash"
  | elvish => "elvish"
  | fish => "fish"
  | powershell => "powershell"
  | zsh => "zsh"

def ofName? (s : String) : Option Shell := all.find? fun shell => shell.name = s

def instructions : Shell → List String
  | bash => [
    "# Add to ~/.bashrc:",
    "eval \"$(" ++ programName ++ " completions bash)\"",
    "",
    "# Or save to a file:",
    programName ++ " completions bash > ~/.local/share/bash-completion/completions/" ++
      programName]
  | zsh => [
    "# Save to a file in fpath:",
    programName ++ " completions zsh > ~/.zfunc/_" ++ programName,
    "# Then add to ~/.zshrc before compinit:",
    "fpath=(~/.zfunc $fpath)"]
  | fish => [
    "# Save to fish completions directory:",
    programName ++ " completions fish > ~/.config/fish/completions/" ++ programName ++ ".fish"]
  | powershell => [
    "# Add to $PROFILE:",
    "Invoke-Expression (& " ++ programName ++ " completions powershell | Out-String)"]
  | elvish => [
    "# Add to ~/.elvish/rc.elv:",
    "eval (" ++ programName ++ " completions elvish | slurp)"]

end Shell

namespace CompletionReport

def table (shell : Shell) (s : Settings) : String :=
  s.paint .boldCyan programName ++ " completions for " ++ s.paint .yellow shell.name ++ "\n\n" ++
    Text.join "\n" (s.paint .boldCyan "Installation:" :: shell.instructions.map ("  " ++ ·))

def toJson (shell : Shell) : Json :=
  .object [
    ("shell", .string shell.name),
    ("instructions", .array (shell.instructions.map Json.string))]

/-- The steps as CSV, without the empty lines. Every step stands between quotes. -/
def csv (shell : Shell) : String :=
  Text.join "\n" ("shell,instruction" ::
    (shell.instructions.filter fun i => !i.isEmpty).map fun i =>
      shell.name ++ ",\"" ++ String.ofList (Csv.doubleQuotes i.toList) ++ "\"")

/-- The steps in the form of the settings. A diff is shown as a text. -/
def text (shell : Shell) (s : Settings) : String :=
  match s.format with
  | .table | .diff => table shell s
  | .json => jsonText s (toJson shell)
  | .csv => csv shell

end CompletionReport

end StorageUpgrade.Report
