import StorageUpgrade.Text.Lowercase

/-!
# Settings of a report

A report is written as a table, as JSON, as CSV or as a diff. Colours are escape sequences around a
piece of text, and there are none unless the settings ask for them.
-/
namespace StorageUpgrade.Report

inductive Format where
  | table
  | json
  | csv
  | diff
  deriving DecidableEq

namespace Format

def name : Format → String
  | table => "table"
  | json => "json"
  | csv => "csv"
  | diff => "diff"

def ofName? (s : String) : Option Format := [table, json, csv, diff].find? fun f => f.name = s

/-- The form with this name in any mixture of capital and small letters. -/
def parse? (s : String) : Option Format := ofName? (Text.lowercase s)

def unknown (s : String) : String := "Unknown output format: '" ++ s ++ "'"

end Format

structure Settings where
  format : Format := .table
  color : Bool := false
  truncate : Bool := false
  compact : Bool := false
  deriving DecidableEq

inductive Paint where
  | boldRed
  | boldGreen
  | boldCyan
  | green
  | yellow
  | dimmed

def Paint.code : Paint → String
  | boldRed => "1;31"
  | boldGreen => "1;32"
  | boldCyan => "1;36"
  | green => "32"
  | yellow => "33"
  | dimmed => "2"

def Settings.paint (s : Settings) (p : Paint) (text : String) : String :=
  if s.color then "\x1b[" ++ p.code ++ "m" ++ text ++ "\x1b[0m" else text

end StorageUpgrade.Report
