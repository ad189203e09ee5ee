import DevMachines.CommandLine.Grammar
import DevMachines.Text.Digit
import DevMachines.Text.Quoted

/-!
# Reading a command line

Reading happens in two passes.  The first looks at every word by itself: is it an option of this
part of the command line, something that looks like an option, or an argument?  A long option may be
shortened as long as only one option begins like that, and a value may follow an equals sign.  The
second pass goes through the words in order, gives options their values, and does what they ask for.

The first word in the place of an argument is the command; everything behind it is the command's own
affair and is read in the same two passes.  What nobody wanted is collected and refused at the end.
-/

namespace DevMachines.CommandLine

/-! ## Faults -/

/-- Why a command line is refused. -/
inductive LineFault where
  | ambiguous (word : String) (candidates : List String)
  | valueMissing (option : String)
  | valueIgnored (option value : String)
  | badChoice (argument value : String) (choices : List String)
  | unrecognized (words : List String)
  deriving DecidableEq, Repr

/-- The wording of a fault. -/
def LineFault.message : LineFault → String
  | .ambiguous word candidates =>
      "ambiguous option: " ++ word ++ " could match " ++ ", ".intercalate candidates
  | .valueMissing option => "argument " ++ option ++ ": expected one argument"
  | .valueIgnored option value =>
      "argument " ++ option ++ ": ignored explicit argument " ++ Text.quoted value
  | .badChoice argument value choices =>
      "argument " ++ argument ++ ": invalid choice: " ++ Text.quoted value ++ " (choose from " ++
        ", ".intercalate (choices.map Text.quoted) ++ ")"
  | .unrecognized words => "unrecognized arguments: " ++ " ".intercalate words

/-- What ends the reading early. -/
inductive Stop where
  | help
  | version
  | fault (fault : LineFault)
  deriving DecidableEq, Repr

/-! ## Words by themselves -/

/-- A value that is written in one word with its option, and whether an equals sign is between
them. -/
structure Attached where
  afterEquals : Bool
  value : List Char
  deriving DecidableEq, Repr

/-- What a word looks like. -/
inductive WordKind where
  | argument
  /-- The word after which everything is an argument. -/
  | divider
  | option (name : String) (option : CommandOption) (attached : Option Attached)
  | unknownOption
  deriving DecidableEq, Repr

/-- Cuts a word at its first equals sign. -/
def cutAtEquals (cs : List Char) : List Char × Option (List Char) :=
  match cs.dropWhile (· != '=') with
  | _ :: value => (cs.takeWhile (· != '='), some value)
  | [] => (cs, none)

/-- Is a word a negative number?  A line feed at its end does not count. -/
def isNegativeNumber (cs : List Char) : Bool :=
  match if cs.getLast? = some '\n' then cs.dropLast else cs with
  | '-' :: rest =>
      let whole := rest.takeWhile Text.isDecimalDigit
      match rest.drop whole.length with
      | [] => !whole.isEmpty
      | '.' :: fraction => !fraction.isEmpty && fraction.all Text.isDecimalDigit
      | _ => false
  | _ => false

/-- The options that a word can be short for. -/
def candidates (options : List CommandOption) (cs : List Char) :
    List (String × CommandOption × Option Attached) :=
  match cs with
  | '-' :: '-' :: _ =>
      let (front, value) := cutAtEquals cs
      let attached := value.map fun value => ⟨true, value⟩
      (optionNames options).filterMap fun (name, o) =>
        if front.isPrefixOf name.toList then some (name, o, attached) else none
  | '-' :: letter :: value =>
      (optionNames options).filterMap fun (name, o) =>
        if name.toList = ['-', letter] then some (name, o, some ⟨false, value⟩)
        else if cs.isPrefixOf name.toList then some (name, o, none)
        else none
  | _ => []

/-- The kind of a word that begins with a hyphen and is no name of an option. -/
def otherKind (options : List CommandOption) (word : String) : Except LineFault WordKind :=
  let cs := word.toList
  match candidates options cs with
  | _ :: _ :: _ => .error (.ambiguous word ((candidates options cs).map (·.1)))
  | [(name, o, attached)] => .ok (.option name o attached)
  | [] =>
      if isNegativeNumber cs || cs.contains ' ' then .ok .argument else .ok .unknownOption

/-- The kind of a word. -/
def wordKind (options : List CommandOption) (word : String) : Except LineFault WordKind :=
  let cs := word.toList
  if word = "--" then .ok .divider
  else if cs.head? ≠ some '-' then .ok .argument
  else
    match (optionNames options).lookup word with
    | some o => .ok (.option word o none)
    | none =>
        if cs.length = 1 then .ok .argument
        else
          match cutAtEquals cs with
          | (front, some value) =>
              match (optionNames options).lookup (String.ofList front) with
              | some o => .ok (.option (String.ofList front) o (some ⟨true, value⟩))
              | none => otherKind options word
          | (_, none) => otherKind options word

/-- A word with its kind. -/
abbrev Word := String × WordKind

/-- Looks at all words.  Behind the divider everything is an argument. -/
def wordKinds (options : List CommandOption) : List String → Except LineFault (List Word)
  | [] => .ok []
  | word :: rest => do
      match ← wordKind options word with
      | .divider => pure ((word, .divider) :: rest.map (·, .argument))
      | kind => pure ((word, kind) :: (← wordKinds options rest))

/-! ## Words in order -/

/-- An option that has been given, by its first name, with its value. -/
structure Given where
  name : String
  value : Option String
  deriving DecidableEq, Repr

/-- The first name of an option. -/
def CommandOption.key (o : CommandOption) : String := o.names.headD ""

/-- What a part of a command line says. -/
structure Reading where
  given : List Given := []
  /-- The word in the place of the command, and all words behind it. -/
  command : Option (String × List String) := none
  /-- The words that nobody wanted. -/
  extras : List String := []
  deriving DecidableEq, Repr

/-- What a word with options says: the options in it with their values, a last one whose value is
still missing, and a rest that nobody wanted. -/
structure Cluster where
  options : List (CommandOption × Option String)
  last : Option CommandOption := none
  extras : List String := []

/-- Reads what is attached to an option: its value, or further options of one letter. -/
def readAttached (options : List CommandOption) (name : String) (o : CommandOption)
    (afterEquals : Bool) : List Char → Except LineFault Cluster
  | [] =>
      if o.value.isSome then .ok { options := [(o, some "")] } else .error (.valueIgnored o.title "")
  | letter :: rest =>
      let value := String.ofList (letter :: rest)
      if o.value.isSome then .ok { options := [(o, some value)] }
      else if name.startsWith "--" || afterEquals || letter == '-' then
        .error (.valueIgnored o.title value)
      else
        let next := String.ofList ['-', letter]
        match (optionNames options).lookup next with
        | none => .ok { options := [(o, none)], extras := ["-" ++ value] }
        | some n =>
            match rest with
            | [] => .ok { options := [(o, none)], last := some n }
            | c :: more =>
                let cluster := if c = '=' then readAttached options next n true more
                  else readAttached options next n false (c :: more)
                cluster.map fun cluster => { cluster with options := (o, none) :: cluster.options }

/-- Reads a word with an option. -/
def readCluster (options : List CommandOption) (name : String) (o : CommandOption) :
    Option Attached → Except LineFault Cluster
  | none => .ok { options := [], last := some o }
  | some attached => readAttached options name o attached.afterEquals attached.value

/-- Does what an option asks for. -/
def perform (o : CommandOption) (value : Option String) : Except Stop Given :=
  match o.role with
  | .help => .error .help
  | .version => .error .version
  | .setting =>
      match o.value, value with
      | some v, some text =>
          if v.choices.isEmpty || v.choices.contains text then .ok ⟨o.key, some text⟩
          else .error (.fault (.badChoice o.title text v.choices))
      | _, _ => .ok ⟨o.key, value⟩

/-- The value of the last option of a cluster, which is the next word, and the words behind it. -/
def takeValue (o : CommandOption) (words : List Word) :
    Except LineFault (Option String × List Word) :=
  if o.value.isNone then .ok (none, words)
  else
    match words with
    | (word, .argument) :: rest => .ok (some word, rest)
    | _ => .error (.valueMissing o.title)

/-- Is one of the words an option? -/
def anyOption (words : List Word) : Bool := words.any fun (_, kind) =>
  match kind with
  | .option .. => true
  | .unknownOption => true
  | _ => false

/-- Goes through the words in order.  `takesCommand` says whether a command is expected. -/
def readWords (options : List CommandOption) (takesCommand : Bool) :
    Nat → List Word → Except Stop Reading
  | 0, _ => .ok {}
  | _ + 1, [] => .ok {}
  | fuel + 1, (word, kind) :: rest =>
      match kind with
      | .unknownOption =>
          (readWords options takesCommand fuel rest).map
            fun r => { r with extras := word :: r.extras }
      | .option name o attached => do
          let cluster ← (readCluster options name o attached).mapError .fault
          let (last, rest) ← match cluster.last with
            | some o => do
                let (value, rest) ← (takeValue o rest).mapError .fault
                pure ([(o, value)], rest)
            | none => pure ([], rest)
          let given ← (cluster.options ++ last).mapM fun (o, value) => perform o value
          let r ← readWords options takesCommand fuel rest
          pure { r with given := given ++ r.given, extras := cluster.extras ++ r.extras }
      | .argument =>
          if takesCommand then pure { command := some (word, rest.map (·.1)) }
          else
            (readWords options takesCommand fuel rest).map
              fun r => { r with extras := word :: r.extras }
      | .divider =>
          if takesCommand && !rest.isEmpty then pure { command := some (word, rest.map (·.1)) }
          else pure { extras := word :: rest.map (·.1) }

/-- Reads a part of a command line. -/
def readPart (options : List CommandOption) (takesCommand : Bool) (words : List String) :
    Except Stop Reading := do
  let words ← (wordKinds options words).mapError .fault
  readWords options takesCommand (words.length + 1) words

/-! ## The whole command line -/

/-- What a command line says. -/
structure Line where
  given : List Given
  command : Option (String × List Given)
  deriving DecidableEq, Repr

/-- What ended the reading early, and in which command. -/
structure Stopped where
  command : Option CommandForm
  stop : Stop
  deriving DecidableEq, Repr

/-- Refuses words that nobody wanted. -/
def refuseExtras (extras : List String) (line : Line) : Except Stopped Line :=
  if extras.isEmpty then .ok line else .error ⟨none, .fault (.unrecognized extras)⟩

/-- Reads a command line. -/
def readLine (p : ProgramForm) (words : List String) : Except Stopped Line := do
  let r ← (readPart p.options true words).mapError (⟨none, ·⟩)
  match r.command with
  | none => refuseExtras r.extras { given := r.given, command := none }
  | some (name, rest) =>
      match p.commands.find? (·.name == name) with
      | none => throw ⟨none, .fault (.badChoice "command" name (p.commands.map (·.name)))⟩
      | some command => do
          let inner ← (readPart command.options false rest).mapError (⟨some command, ·⟩)
          refuseExtras (r.extras ++ inner.extras)
            { given := r.given, command := some (name, inner.given) }

end DevMachines.CommandLine
