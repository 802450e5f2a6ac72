import Mpdscribble.StringUtil

/-! `IniParser::ParseLine` (IniFile.cxx), the parser of mpdscribble's configuration file.

    A line is stripped of leading whitespace and is then empty, a comment (`#`), a section header
    `[name]` or a key line `key = value`. Headers open a new section; key lines go to the section
    the parser's cursor names, and a key line before every header opens the unnamed section `""`.
    A repeated section name or a repeated key in one section is an error.

    The cursor of the source is an iterator that stays uninitialised until the first insertion;
    here it is a section name, and `IniParser.valid` says it names a section once the map is not
    empty, so a parser whose cursor dangles cannot be built. -/

namespace Mpdscribble

/-- `IniSection`: key to value. -/
abbrev IniSection := StrMap Str

/-- `IniFile`: section name to section; the unnamed section is `""`. -/
abbrev IniFile := StrMap IniSection

/-- Non-empty, with every byte accepted by `valid`: the loop of `IsValidSectionName` and
    `IsValidKey`, which differ only in the byte class. -/
def isValidName (valid : Char → Bool) (name : Str) : Bool := !name.isEmpty && name.all valid

/-- `IsValidSectionNameChar`: `[A-Za-z0-9_.-]`. -/
def isValidSectionNameChar (ch : Char) : Bool :=
  isAlphaNumericASCII ch || ch = '_' || ch = '-' || ch = '.'

/-- `IsValidSectionName`. -/
def isValidSectionName (name : Str) : Bool := isValidName isValidSectionNameChar name

/-- `IsValidKeyChar`: `[A-Za-z0-9_]`. -/
def isValidKeyChar (ch : Char) : Bool := isAlphaNumericASCII ch || ch = '_'

/-- `IsValidKey`. -/
def isValidKey (name : Str) : Bool := isValidName isValidKeyChar name

/-- The exceptions `ParseLine` throws, named after their messages. -/
inductive ParseError where
  /-- Thrown as `Missing ']'`. -/
  | missingBracket
  /-- Thrown as `Invalid section name`. -/
  | invalidSectionName
  /-- Thrown as `Garbage after section`. -/
  | garbageAfterSection
  /-- Thrown as `Duplicate section name: %.*s`. -/
  | duplicateSectionName (name : Str)
  /-- Thrown as `Missing '='`. -/
  | missingEquals
  /-- Thrown as `Invalid key`. -/
  | invalidKey
  /-- Thrown as `Duplicate key: %.*s`. -/
  | duplicateKey (key : Str)
  /-- Thrown as `Syntax error`. -/
  | syntaxError
  deriving DecidableEq, Repr

/-- `IniParser`: the map built so far and `cursor`, the iterator `section` to the section key lines
    go to. -/
structure IniParser where
  data : IniFile
  cursor : Str
  valid : data.keys ≠ [] → cursor ∈ data.keys

namespace IniParser

/-- A fresh parser: no sections, and a cursor that is never read before it is set. -/
def init : IniParser := ⟨.empty, [], fun h => absurd rfl h⟩

/-- `IniParser::Commit`. -/
def commit (p : IniParser) : IniFile := p.data

/-- `data.emplace(name, IniSection{})` of a header, which also moves the cursor to `name`. -/
def emplaceSection (p : IniParser) (name : Str) : Except ParseError IniParser :=
  if (p.data.emplace name .empty).2 then .ok ⟨(p.data.emplace name .empty).1, name, fun _ => StrMap.mem_keys_emplace ..⟩
  else .error (.duplicateSectionName name)

/-- The `[name]` branch of `ParseLine`, from the text after the bracket. -/
def parseHeader (p : IniParser) (rest : Str) : Except ParseError IniParser :=
  match split ']' (stripLeft rest) with
  | (_, none) => .error .missingBracket
  | (name, some after) =>
    if !isValidSectionName (strip name) then .error .invalidSectionName
    else if !(stripLeft after).isEmpty then .error .garbageAfterSection
    else p.emplaceSection (strip name)

/-- `data.empty()` opens the unnamed section and points the cursor at it. -/
def openDefault (p : IniParser) : IniParser :=
  if p.data.isEmpty then ⟨(p.data.emplace [] .empty).1, [], fun _ => StrMap.mem_keys_emplace ..⟩ else p

/-- `section->second.emplace(key, value)` of a key line, after `openDefault`. -/
def emplaceKey (p : IniParser) (key value : Str) : Except ParseError IniParser :=
  let p := p.openDefault
  let sec := (p.data.find? p.cursor).getD .empty
  if (sec.emplace key value).2 then
    .ok ⟨p.data.modify p.cursor (fun _ => (sec.emplace key value).1), p.cursor, by
      rw [StrMap.keys_modify]; exact p.valid⟩
  else .error (.duplicateKey key)

/-- The key line branch of `ParseLine`, from the stripped line. -/
def parseKeyLine (p : IniParser) (line : Str) : Except ParseError IniParser :=
  match split '=' line with
  | (_, none) => .error .missingEquals
  | (key, some value) =>
    if !isValidKey (stripRight key) then .error .invalidKey
    else p.emplaceKey (stripRight key) (strip value)

/-- `IniParser::ParseLine`. -/
def parseLine (p : IniParser) (line : Str) : Except ParseError IniParser :=
  match stripLeft line with
  | [] => .ok p
  | front :: rest =>
    if front = '#' then .ok p
    else if front = '[' then p.parseHeader rest
    else if isValidKeyChar front then p.parseKeyLine (front :: rest)
    else .error .syntaxError

end IniParser

/-- Fold `ParseLine` over `lines` from `p`; an error carries the 0-based index of the line
    that threw it. -/
def parseFold (p : IniParser) : List Str → Except (Nat × ParseError) IniParser
  | [] => .ok p
  | line :: lines =>
    match p.parseLine line with
    | .error e => .error (0, e)
    | .ok p' =>
      match parseFold p' lines with
      | .error (i, e) => .error (i + 1, e)
      | .ok q => .ok q

/-- Parse a file line by line from a fresh parser, then commit. -/
def parseLines (lines : List Str) : Except (Nat × ParseError) IniFile :=
  (parseFold IniParser.init lines).map IniParser.commit

end Mpdscribble
