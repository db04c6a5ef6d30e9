import PointAndClick.CommandLine.Switch
import PointAndClick.Geometry.Shape
import PointAndClick.Text.Numeral

/-!
# What a command line asks for

A command line is `[-v] COMMAND FILE ...`: each command has its own options and words.
-/

set_option autoImplicit false

namespace PointAndClick.CommandLine

/-- What is asked about a project. Scenes are given by their numbers. -/
inductive ProjectQuery
  | info
  | variableTable
  | scenes
  | scene (number : Int)
  /-- Commands with a text in them. -/
  | search (part : String)
  | conditions
  | dump
  /-- What a scene does when it is entered, and when a point is clicked then. -/
  | simulate (number : Int) (click : Option Point)
  | extract (folder : String) (maps : Bool)
deriving DecidableEq, Repr

/-- What is asked about a file. -/
inductive Query
  /-- Scene starts, found by their looks. -/
  | boundaries (start : Option Int) (extended json : Bool)
  /-- Something about the project that the file decodes to. -/
  | project (query : ProjectQuery)
deriving DecidableEq, Repr

/-- What a command line asks for. -/
inductive Invocation
  | version
  | query (file : String) (query : Query)
deriving DecidableEq, Repr

/-- A number among the arguments. -/
def number (text : String) : Except Misuse Int :=
  match Text.savedInteger? text with
  | some n => .ok n
  | none => .error (.noNumber text)

/-- The options of a command. -/
def options? : String → Option (List Switch)
  | "info" | "vars" | "scenes" | "scene" | "search" | "conditions" | "dump" => some []
  | "boundaries" => some [.start, .extended, .json]
  | "simulate" => some [.click]
  | "extract" => some [.output, .noMaps]
  | _ => none

/-- The words of a command behind its file. -/
def wordNames : String → List String
  | "scene" | "simulate" => ["N"]
  | "search" => ["PATTERN"]
  | _ => []

/-- The point of a click, if there is one. -/
def clickOf (s : Scanned) : Except Misuse (Option Point) :=
  match s.values? .click with
  | some [x, y] => do return some ⟨← number x, ← number y⟩
  | _ => .ok none

/-- The query of a command, given its options and the words behind the file. -/
def queryOf (command : String) (s : Scanned) (words : List String) : Except Misuse Query :=
  let missing := (wordNames command).drop words.length
  match missing, words.drop (wordNames command).length with
  | name :: _, _ => .error (.missingWord name)
  | [], word :: _ => .error (.extraWord word)
  | [], [] =>
      let word := words.headD ""
      match command with
      | "info" => .ok (.project .info)
      | "vars" => .ok (.project .variableTable)
      | "scenes" => .ok (.project .scenes)
      | "scene" => do return .project (.scene (← number word))
      | "search" => .ok (.project (.search word))
      | "conditions" => .ok (.project .conditions)
      | "boundaries" => do
          let start ← match s.values? .start with
            | some [text] => (number text).map some
            | _ => .ok none
          return .boundaries start (s.has .extended) (s.has .json)
      | "dump" => .ok (.project .dump)
      | "simulate" => do return .project (.simulate (← number word) (← clickOf s))
      | "extract" =>
          match s.values? .output with
          | some [folder] => .ok (.project (.extract folder (!s.has .noMaps)))
          | _ => .error (.missingOption .output)
      | name => .error (.unknownCommand name)

/-- Reads a command and its arguments. -/
def parseCommand (command : String) (args : List String) : Except Misuse Invocation :=
  match options? command with
  | none => .error (.unknownCommand command)
  | some allowed => do
      let s ← scan allowed true args
      match s.words with
      | [] => .error (.missingWord "FILE")
      | file :: words => return .query file (← queryOf command s words)

/-- Reads a command line. -/
def parse (args : List String) : Except Misuse Invocation := do
  let s ← scan [.verbose, .version] false args
  if s.has .version then return .version
  match s.words with
  | [] => .error .missingCommand
  | command :: rest => parseCommand command rest

end PointAndClick.CommandLine
