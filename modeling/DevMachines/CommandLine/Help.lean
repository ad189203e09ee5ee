import DevMachines.CommandLine.Reader

/-!
# Descriptions of a command line

A description begins with the usage: all options in brackets, on as few lines as possible, and below
them what comes after the options.  Then every option has its own entry: how it is written at the
left, and what it does beside that, or below it where the left column is too narrow.

Everything is laid out in a width which is two less than that of the terminal.
-/

namespace DevMachines.CommandLine

/-- A row of blanks. -/
def blanks (n : Nat) : String := String.ofList (List.replicate n ' ')

/-! ## Paragraphs -/

/-- The words of a text and the single blanks between them. -/
def chunks (text : String) : List (List Char) :=
  ((text.splitOn " ").filter (!·.isEmpty)).map String.toList |>.intersperse [' ']

/-- A line under construction: the chunks on it, the last first, and the chunks still to come. -/
structure PartialLine where
  line : List (List Char)
  size : Nat
  rest : List (List Char)

/-- Puts chunks on a line as long as they fit. -/
def takeChunks (width : Nat) (line : List (List Char)) (size : Nat) : List (List Char) → PartialLine
  | [] => ⟨line, size, []⟩
  | chunk :: rest =>
      if size + chunk.length ≤ width then
        takeChunks width (chunk :: line) (size + chunk.length) rest
      else ⟨line, size, chunk :: rest⟩

/-- Puts the beginning of a word on a line that is too short for it, if no line is long enough. -/
def breakChunk (width : Nat) (p : PartialLine) : PartialLine :=
  match p.rest with
  | chunk :: rest =>
      if width < chunk.length then
        ⟨chunk.take (width - p.size) :: p.line, width, chunk.drop (width - p.size) :: rest⟩
      else p
  | [] => p

/-- Is a chunk a blank? -/
def isBlankChunk (chunk : List Char) : Bool := chunk.all (· == ' ')

/-- Distributes chunks over lines. -/
def fillChunks (width : Nat) : Nat → Bool → List (List Char) → List (List Char)
  | 0, _, _ => []
  | fuel + 1, isFirst, cs =>
      let cs := match cs with
        | chunk :: rest => if isBlankChunk chunk && !isFirst then rest else chunk :: rest
        | [] => []
      if cs.isEmpty then []
      else
        let p := breakChunk width (takeChunks width [] 0 cs)
        let line := match p.line with
          | last :: before => if isBlankChunk last then before else last :: before
          | [] => []
        let lines := fillChunks width fuel (isFirst && line.isEmpty) p.rest
        if line.isEmpty then lines else line.reverse.flatten :: lines

/-- The least width of a paragraph. -/
def leastWidth : Nat := 11

/-- The lines of a paragraph in a width. -/
def paragraph (width : Nat) (text : String) : List String :=
  (fillChunks width (2 * text.length + 2) true (chunks text)).map String.ofList

/-! ## How options are written -/

/-- What stands for a value: its choices, or its placeholder. -/
def OptionValue.text (v : OptionValue) : String :=
  if v.choices.isEmpty then v.placeholder else "\x7b" ++ ",".intercalate v.choices ++ "\x7d"

/-- A name of an option with its value. -/
def CommandOption.written (o : CommandOption) (name : String) : String :=
  match o.value with
  | some v => name ++ " " ++ v.text
  | none => name

/-- An option in brackets, under its first name. -/
def CommandOption.bracketed (o : CommandOption) : String := "[" ++ o.written o.key ++ "]"

/-- All ways to write an option. -/
def CommandOption.allWritten (o : CommandOption) : String :=
  ", ".intercalate (o.names.map o.written)

/-- What stands for the command. -/
def commandPlace (commands : List CommandForm) : String :=
  "\x7b" ++ ",".intercalate (commands.map (·.name)) ++ "\x7d"

/-! ## The usage -/

/-- What begins a usage. -/
def usageStart : String := "usage: "

/-- Distributes parts over lines; the first line is begun already, and `used` characters are on
it. -/
def usageLines (width indent used : Nat) (line : List String) : List String → List (List String)
  | [] => if line.isEmpty then [] else [line]
  | part :: rest =>
      if width < used + 1 + part.length ∧ !line.isEmpty then
        line :: usageLines width indent (indent + part.length) [part] rest
      else usageLines width indent (used + 1 + part.length) (line ++ [part]) rest

/-- Parts on lines that all have an indentation. -/
def indentedUsage (width indent : Nat) (parts : List String) : List String :=
  (usageLines width indent (indent - 1) [] parts).map fun line =>
    blanks indent ++ " ".intercalate line

/-- A usage that takes several lines. -/
def longUsage (width : Nat) (program : String) (options places : List String) : List String :=
  if 4 * (usageStart.length + program.length) ≤ 3 * width then
    let indent := usageStart.length + program.length + 1
    let first := usageLines width indent (usageStart.length - 1) [] (program :: options)
    let lines := first.zipIdx.map fun (line, i) =>
      (if i = 0 then "" else blanks indent) ++ " ".intercalate line
    lines ++ indentedUsage width indent places
  else
    let indent := usageStart.length
    let lines := indentedUsage width indent (options ++ places)
    program :: (if 1 < lines.length then
      indentedUsage width indent options ++ indentedUsage width indent places else lines)

/-- The lines of a usage: the name, the options, and what comes after them. -/
def usage (width : Nat) (program : String) (options places : List String) : String :=
  let short := " ".intercalate (program :: (options ++ places))
  if usageStart.length + short.length ≤ width then usageStart ++ short
  else usageStart ++ "\n".intercalate (longUsage width program options places)

/-! ## Entries -/

/-- An entry of a description. -/
structure Entry where
  indent : Nat
  written : String
  description : String

/-- The greatest indentation of descriptions. -/
def greatestPosition (width : Nat) : Nat := min 24 (max (width - 20) 4)

/-- The indentation of the descriptions of entries. -/
def descriptionPosition (width : Nat) (entries : List Entry) : Nat :=
  min ((entries.map fun e => e.written.length + 2).foldl max 0 + 2) (greatestPosition width)

/-- The lines of an entry. -/
def Entry.lines (width position : Nat) (e : Entry) : List String :=
  let room := position - e.indent - 2
  let start := blanks e.indent ++ e.written
  let description := paragraph (max (width - position) leastWidth) e.description
  let further (lines : List String) := lines.map (blanks position ++ ·)
  match description with
  | [] => [start]
  | first :: rest =>
      if e.written.length ≤ room then
        (start ++ blanks (room - e.written.length) ++ "  " ++ first) :: further rest
      else start :: further (first :: rest)

/-- A section with a heading. -/
def helpSection (width position : Nat) (heading : String) (entries : List Entry) : String :=
  "\n".intercalate ((heading ++ ":") :: entries.flatMap (Entry.lines width position))

/-- The entries of options. -/
def optionEntries (options : List CommandOption) : List Entry :=
  options.map fun o => ⟨2, o.allWritten, o.description⟩

/-! ## Programs and commands -/

/-- The width of descriptions on a terminal. -/
def layoutWidth (columns : Nat) : Nat := columns - 2

/-- The usage of a program. -/
def ProgramForm.usage (p : ProgramForm) (columns : Nat) : String :=
  CommandLine.usage (layoutWidth columns) p.name (p.options.map CommandOption.bracketed)
    [commandPlace p.commands, "..."]

/-- The description of a program. -/
def ProgramForm.help (p : ProgramForm) (columns : Nat) : String :=
  let width := layoutWidth columns
  let commands := ⟨2, commandPlace p.commands, "Commands"⟩ ::
    p.commands.map fun c => ⟨4, c.name, c.description⟩
  let options := optionEntries p.options
  let position := descriptionPosition width (commands ++ options)
  "\n\n".intercalate [
    p.usage columns,
    "\n".intercalate (paragraph (max width leastWidth) p.description),
    helpSection width position "positional arguments" commands,
    helpSection width position "options" options] ++ "\n"

/-- The name of a command, as its reports give it. -/
def CommandForm.title (c : CommandForm) (p : ProgramForm) : String := p.name ++ " " ++ c.name

/-- The usage of a command. -/
def CommandForm.usage (c : CommandForm) (p : ProgramForm) (columns : Nat) : String :=
  CommandLine.usage (layoutWidth columns) (c.title p) (c.options.map CommandOption.bracketed) []

/-- The description of a command. -/
def CommandForm.help (c : CommandForm) (p : ProgramForm) (columns : Nat) : String :=
  let width := layoutWidth columns
  let options := optionEntries c.options
  "\n\n".intercalate [
    c.usage p columns,
    helpSection width (descriptionPosition width options) "options" options] ++ "\n"

/-- The text that answers a command line which was not read to its end: on standard output for a
description or the version, on standard error for a fault. -/
structure StopReport where
  output : String := ""
  errors : String := ""
  exitCode : Nat := 0
  deriving DecidableEq, Repr

/-- The report of a command line that was not read to its end. -/
def Stopped.report (p : ProgramForm) (version : String) (columns : Nat) (s : Stopped) :
    StopReport :=
  let usage := match s.command with
    | none => p.usage columns
    | some c => c.usage p columns
  let title := match s.command with
    | none => p.name
    | some c => c.title p
  match s.stop, s.command with
  | .help, none => { output := p.help columns }
  | .help, some c => { output := c.help p columns }
  | .version, _ =>
      let lines := paragraph (max (layoutWidth columns) leastWidth) (p.name ++ " " ++ version)
      { output := "\n".intercalate lines ++ "\n" }
  | .fault fault, _ =>
      { errors := usage ++ "\n" ++ title ++ ": error: " ++ fault.message ++ "\n", exitCode := 2 }

end DevMachines.CommandLine
