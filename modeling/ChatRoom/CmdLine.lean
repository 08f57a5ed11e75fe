import ChatRoom.Lib.Extraction
import Std.Data.ExtTreeMap.Lemmas

/-! `cmdline::parser`: the options that a program has, and what a command line makes
of them. An option without a value is set or not; one with a value has a reader for
its text. `parse` goes on behind an error, and notes all of them in order. -/
namespace ChatRoom.CmdLine
open Lib

/-- Texts that are only printed. -/
abbrev Text := List UInt8

def text (literal : String) : Text := (StdString.ascii literal).bytes

def dash : UInt8 := UInt8.ofNat '-'.toNat

def equals : UInt8 := UInt8.ofNat '='.toNat

/-! ### Options -/

/-- The types of values that there are options of. -/
inductive ValueType where
  | string
  | short
  deriving DecidableEq

abbrev ValueType.Carrier : ValueType → Type
  | .string => StdString
  | .short => Int16

def readableTypename : ValueType → Text
  | .string => text "string"
  | .short => text "short"

def defaultValue : (type : ValueType) → type.Carrier → Text
  | .string, value => value.bytes
  | .short, value => (if value < 0 then [dash] else []) ++ numeral value.toInt.natAbs

/-- `option_with_value`: what it has beside a name. A text that the reader throws at
is none. -/
structure OptionValue where
  type : ValueType
  need : Bool
  actual : type.Carrier
  read : StdString → Option type.Carrier

/-- `option_base`; an `option_without_value` has none, and `snam` is 0 where there is
no short name. -/
structure OptionBase where
  nam : StdString
  snam : UInt8
  desc : Text
  has : Bool
  value : Option OptionValue

namespace OptionBase

def withoutValue (nam : StdString) (snam : UInt8) (desc : Text) : OptionBase where
  nam
  snam
  desc
  has := false
  value := none

def fullDescription (type : ValueType) (need : Bool) (initial : type.Carrier) (desc : Text) : Text :=
  desc ++ text " (" ++ readableTypename type ++
    (if need then [] else text " [=" ++ defaultValue type initial ++ text "]") ++ text ")"

/-- The reader's result is converted to the type of the option. -/
def withValue (type : ValueType) (nam : StdString) (snam : UInt8) (desc : Text) (need : Bool) (initial : type.Carrier)
    (read : StdString → Option type.Carrier) : OptionBase where
  nam
  snam
  desc := fullDescription type need initial desc
  has := false
  value := some { type, need, actual := initial, read }

variable (opt : OptionBase)

def hasValue : Bool := opt.value.isSome

def must : Bool := opt.value.any OptionValue.need

def valid : Bool := !(opt.must && !opt.has)

/-- `set()`. -/
def set : Option OptionBase :=
  match opt.value with
  | none => some { opt with has := true }
  | some _ => none

/-- `set(value)`. -/
def setTo (value : StdString) : Option OptionBase :=
  match opt.value with
  | none => none
  | some held => (held.read value).map fun actual => { opt with has := true, value := some { held with actual } }

def shortDescription : Text :=
  text "--" ++ opt.nam.bytes ++ match opt.value with
    | none => []
    | some held => text "=" ++ readableTypename held.type

end OptionBase

/-! ### The parser -/

structure Parser where
  options : Std.ExtTreeMap StdString OptionBase
  /-- The names of the options, as they were added. -/
  ordered : List StdString
  ftr : Text
  progName : Text
  others : List StdString
  errors : List Text
  mDesc : Text

/-- What ends the program before it does anything else. -/
inductive Ended where
  /-- `exit`, and what is printed before. -/
  | exits (code : Nat) (printed : Text)
  /-- A `cmdline_error` that nobody catches. -/
  | throws (msg : Text)
  deriving DecidableEq

abbrev Lookup := Std.ExtTreeMap UInt8 StdString

namespace Parser

def new : Parser where
  options := ∅
  ordered := []
  ftr := []
  progName := []
  others := []
  errors := []
  mDesc := []

variable (parser : Parser)

/-- `add`, whichever kind of option it makes. -/
def add (opt : OptionBase) : Except Ended Parser :=
  if parser.options.contains opt.nam then .error (.throws (text "multiple definition: " ++ opt.nam.bytes))
  else .ok { parser with
    options := parser.options.insert opt.nam opt
    ordered := parser.ordered ++ [opt.nam] }

def exist (name : StdString) : Except Ended Bool :=
  match parser.options[name]? with
  | none => .error (.throws (text "there is no flag: --" ++ name.bytes))
  | some opt => .ok opt.has

def get (type : ValueType) (name : StdString) : Except Ended type.Carrier :=
  match parser.options[name]? with
  | none => .error (.throws (text "there is no flag: --" ++ name.bytes))
  | some opt =>
    match opt.value with
    | none => .error (.throws (text "type mismatch flag '" ++ name.bytes ++ text "'"))
    | some held =>
      if same : held.type = type then .ok (same ▸ held.actual)
      else .error (.throws (text "type mismatch flag '" ++ name.bytes ++ text "'"))

def note (error : Text) : Parser := { parser with errors := parser.errors ++ [error] }

/-- `set_option(name)`. -/
def setOption (name : StdString) : Parser :=
  match parser.options[name]? with
  | none => parser.note (text "undefined option: --" ++ name.bytes)
  | some opt =>
    match opt.set with
    | none => parser.note (text "option needs value: --" ++ name.bytes)
    | some changed => { parser with options := parser.options.insert name changed }

/-- `set_option(name, value)`. -/
def setOptionTo (name value : StdString) : Parser :=
  match parser.options[name]? with
  | none => parser.note (text "undefined option: --" ++ name.bytes)
  | some opt =>
    match opt.setTo value with
    | none => parser.note (text "option value is invalid: --" ++ name.bytes ++ text "=" ++ value.bytes)
    | some changed => { parser with options := parser.options.insert name changed }

/-! ### `parse` -/

/-- The first initial that two options have is an error. -/
def addInitial (lookup : Lookup) (entry : StdString × OptionBase) : Except UInt8 Lookup :=
  if entry.1.length = 0 then .ok lookup
  else if entry.2.snam = 0 then .ok lookup
  else if lookup.contains entry.2.snam then .error entry.2.snam
  else .ok (lookup.insert entry.2.snam entry.1)

def lookup : Except UInt8 Lookup := parser.options.toList.foldlM addInitial ∅

/-- An initial that something follows. -/
def takeInitial (lookup : Lookup) (initial : UInt8) : Parser :=
  match lookup[initial]? with
  | none => parser.note (text "undefined short option: -" ++ [initial])
  | some name =>
    if name.length = 0 then parser.note (text "ambiguous short option: -" ++ [initial])
    else parser.setOption name

/-- The loop over the initials: the last one is left. -/
def takeInitials (lookup : Lookup) : Parser → UInt8 → List UInt8 → Parser × UInt8
  | parser, last, [] => (parser, last)
  | parser, last, next :: rest => takeInitials lookup (parser.takeInitial lookup last) next rest

/-- An argument behind its `--`. The flag says, here and below, that the argument
that follows is the value of this one. -/
def takeLong (start : CString) (following : Option CString) : Parser × Bool :=
  let p := start.skip fun char => char != equals
  if p.char ≠ 0 then (parser.setOptionTo (start.passed fun char => char != equals) p.next.string, false)
  else
    let name := start.string
    match parser.options[name]? with
    | none => (parser.note (text "undefined option: --" ++ name.bytes), false)
    | some opt =>
      if opt.hasValue then
        match following with
        | none => (parser.note (text "option needs value: --" ++ name.bytes), false)
        | some value => (parser.setOptionTo name value.string, true)
      else (parser.setOption name, false)

/-- The last of the initials, which may have a value. -/
def takeLast (lookup : Lookup) (last : UInt8) (following : Option CString) : Parser × Bool :=
  match lookup[last]? with
  | none => (parser.note (text "undefined short option: -" ++ [last]), false)
  | some name =>
    if name.length = 0 then (parser.note (text "ambiguous short option: -" ++ [last]), false)
    else
      match following with
      | none => (parser.setOption name, false)
      | some value =>
        if (parser.options[name]?).any OptionBase.hasValue then (parser.setOptionTo name value.string, true)
        else (parser.setOption name, false)

/-- One argument. -/
def takeArg (lookup : Lookup) (arg : CString) (following : Option CString) : Parser × Bool :=
  if arg.char = dash ∧ arg.next.char = dash then parser.takeLong arg.next.next following
  else if arg.char = dash then
    if arg.next.char = 0 then (parser, false)
    else
      let (parser, last) := takeInitials lookup parser arg.next.char arg.next.next.bytes
      parser.takeLast lookup last following
  else ({ parser with others := parser.others ++ [arg.string] }, false)

/-- The loop over the arguments. -/
def takeArgs (lookup : Lookup) : Parser → List CString → Parser
  | parser, [] => parser
  | parser, [arg] => (parser.takeArg lookup arg none).1
  | parser, arg :: value :: rest =>
    match parser.takeArg lookup arg (some value) with
    | (parser, true) => takeArgs lookup parser rest
    | (parser, false) => takeArgs lookup parser (value :: rest)

def needed : List Text :=
  (parser.options.toList.filter fun entry => !entry.2.valid).map fun entry => text "need option: --" ++ entry.1.bytes

/-- The parser when the loop starts. -/
def started (prog : CString) : Parser :=
  { parser with
    errors := []
    others := []
    progName := if parser.progName = [] then prog.bytes else parser.progName }

/-- Behind the loop. -/
def finished : Bool × Parser :=
  let errors := parser.errors ++ parser.needed
  (errors.isEmpty, { parser with errors })

/-- `parse(argc, argv)`. -/
def parse : List CString → Bool × Parser
  | [] => (false, { parser with errors := [text "argument number must be longer than 0"], others := [] })
  | prog :: args =>
    match (parser.started prog).lookup with
    | .error initial => (false, (parser.started prog).note (text "short option '" ++ [initial] ++ text "' is ambiguous"))
    | .ok lookup => (takeArgs lookup (parser.started prog) args).finished

/-! ### `parse_check` -/

def error : Text := parser.errors.headD []

def endl : Text := [10]

/-- A line of the list of options. -/
def optionLine (maxWidth : Nat) (opt : OptionBase) : Text :=
  (if opt.snam = 0 then text "      " else text "  -" ++ [opt.snam] ++ text ", ") ++
    text "--" ++ opt.nam.bytes ++ List.replicate (maxWidth + 4 - opt.nam.length) 32 ++ opt.desc ++ endl

def usage : Text :=
  let ordered := parser.ordered.filterMap fun name => parser.options[name]?
  let maxWidth := (ordered.map fun opt => opt.nam.length).foldl max 0
  text "usage: " ++ parser.progName ++ text " " ++
    (ordered.filter OptionBase.must).flatMap (fun opt => opt.shortDescription ++ text " ") ++
    text "[options] ... " ++ parser.ftr ++ endl ++ text "options:" ++ endl ++ ordered.flatMap (optionLine maxWidth) ++
    endl ++ parser.mDesc ++ endl

def check (argc : Nat) (ok : Bool) : Except Ended Parser := do
  let helps ← if argc = 1 ∧ ok = false then .ok true else parser.exist (.ascii "help")
  if helps then .error (.exits 0 parser.usage)
  else if ok = false then .error (.exits 1 (parser.error ++ endl ++ parser.usage))
  else return parser

/-- `parse_check(argc, argv)`. -/
def parseCheck (argv : List CString) : Except Ended Parser := do
  let parser ←
    if parser.options.contains (.ascii "help") then .ok parser
    else parser.add (.withoutValue (.ascii "help") (UInt8.ofNat '?'.toNat) (text "print this message"))
  let (ok, parser) := parser.parse argv
  parser.check argv.length ok

end Parser

/-! ### Readers -/

/-- `default_reader<std::string>`. -/
def readString (value : StdString) : Option StdString := some value

/-- `default_reader<int>`. -/
def readInt (value : StdString) : Option Int32 := extractWhole value.bytes

/-- `range_reader<int>`. -/
def rangeReader (low high : Int32) (value : StdString) : Option Int32 := do
  let ret ← readInt value
  if low ≤ ret ∧ ret ≤ high then some ret else none

/-- `oneof_reader<std::string>`. -/
def oneofReader (alt : List StdString) (value : StdString) : Option StdString := do
  let ret ← readString value
  if ret ∈ alt then some ret else none

end ChatRoom.CmdLine
