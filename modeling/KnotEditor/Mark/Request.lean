import KnotEditor.Bytes
import KnotEditor.Text
import Mathlib.Algebra.GroupWithZero.Nat

/-! The Mark request grammar: one bounded request line, then optional frontmatter. -/

namespace KnotEditor.Mark

def maxRequestBytes : Nat := 4096
def maxMetadataBytes : Nat := 64 * 1024
def maxDocumentBytes : Nat := 1024 * 1024

inductive MarkAdapterError
  | invalidPath
  | malformedRequest
  | requestTooLarge
  | invalidTimestamp
  | unknownExport
  | rebindPath
  | publicationMismatch
  | invalidSourceDigest
  | unsupportedSource (mediaType : String)
  | commonMarkConversion (reason : String)
  | documentTooLarge
  | versionOverflow
  deriving DecidableEq

def splitOnce (separator : List Char) : List Char → Option (List Char × List Char)
  | [] => none
  | character :: rest =>
    if separator.isPrefixOf (character :: rest) then
      some ([], (character :: rest).drop separator.length)
    else
      (splitOnce separator rest).map fun parts => (character :: parts.1, parts.2)

def rsplitOnce (separator : Char) (text : List Char) : Option (List Char × List Char) :=
  match text.reverse.span (· ≠ separator) with
  | (tail, _ :: base) => some (base.reverse, tail.reverse)
  | (_, []) => none

def segments (separator : Char) : List Char → List (List Char)
  | [] => [[]]
  | character :: rest =>
    if character = separator then [] :: segments separator rest
    else
      match segments separator rest with
      | [] => [[character]]
      | first :: others => (character :: first) :: others

/-- `str::lines`: a carriage return before the line feed belongs to the ending. -/
def textLines : List Char → List (List Char)
  | [] => []
  | '\r' :: '\n' :: rest => [] :: textLines rest
  | '\n' :: rest => [] :: textLines rest
  | character :: rest =>
    match textLines rest with
    | [] => [[character]]
    | first :: others => (character :: first) :: others

def utf8Length (text : List Char) : Nat :=
  (text.map Char.utf8Size).sum

def isControl (character : Char) : Bool :=
  character.toNat < 32 || character.toNat == 127

def validateRequestPath (path : String) : Except MarkAdapterError String :=
  if path.toList.head? ≠ some '/' ∨ path.toList.any isControl ∨
      path.toList.any (fun character => character == '?' || character == '#') ∨
      (segments '/' path.toList).any
        (fun segment => segment == ['.'] || segment == ['.', '.']) then
    .error .invalidPath
  else
    .ok path

def validateDocumentPath (path : String) : Except MarkAdapterError String :=
  match validateRequestPath path with
  | .error error => .error error
  | .ok path =>
    if ¬ (['.', 'm', 'd'] <:+ path.toList) ∨ path = "/.md" then .error .invalidPath
    else .ok path

def isAsciiDigit (character : Char) : Bool :=
  '0' ≤ character && character ≤ '9'

/-- `u64::from_str` on ASCII digits. -/
def parseU64 (digits : List Char) : Option Nat :=
  let value := Nat.ofDigitChars 10 digits 0
  if value < 2 ^ 64 then some value else none

def resolveMarkPath (path : String) : Except MarkAdapterError (String × Option Nat) :=
  match validateRequestPath path with
  | .error error => .error error
  | .ok path =>
    match rsplitOnce '/' path.toList with
    | some (base, 'v' :: number) =>
      if number.isEmpty || !number.all isAsciiDigit then
        .ok (path, none)
      else
        match parseU64 number with
        | some (version + 1) => .ok (String.ofList base, some (version + 1))
        | _ => .error .invalidPath
    | _ => .ok (path, none)

def hexValue (character : Char) : Option Nat :=
  if isAsciiDigit character then some (character.toNat - 48)
  else if 'a' ≤ character ∧ character ≤ 'f' then some (character.toNat - 87)
  else if 'A' ≤ character ∧ character ≤ 'F' then some (character.toNat - 55)
  else none

def hexByte (digits : List Char) (index : Nat) : UInt8 :=
  UInt8.ofNat (16 * ((digits[2 * index]?.bind hexValue).getD 0) +
    (digits[2 * index + 1]?.bind hexValue).getD 0)

def parseContentHash (path : String) : Option Bytes32 :=
  if "/sha256-".toList.isPrefixOf path.toList then
    let value := path.toList.drop "/sha256-".length
    if value.length ≠ 64 ∨ !value.all (fun character => (hexValue character).isSome) then
      none
    else
      some ⟨(List.range 32).map (hexByte value), by
        rw [List.length_map, List.length_range]⟩
  else
    none

structure MarkTimestamp where
  value : String
  deriving DecidableEq

def digitsValue (text : List Char) (start finish : Nat) : Nat :=
  Nat.ofDigitChars 10 ((text.drop start).take (finish - start)) 0

def isUtcRfc3339Seconds (value : String) : Bool :=
  let text := value.toList
  let digits := [0, 1, 2, 3, 5, 6, 8, 9, 11, 12, 14, 15, 17, 18]
  text.length == 20 && text[4]? == some '-' && text[7]? == some '-' &&
    text[10]? == some 'T' && text[13]? == some ':' && text[16]? == some ':' &&
    text[19]? == some 'Z' && digits.all (fun index => text[index]?.any isAsciiDigit) &&
    1 ≤ digitsValue text 5 7 && digitsValue text 5 7 ≤ 12 &&
    1 ≤ digitsValue text 8 10 && digitsValue text 8 10 ≤ 31 &&
    digitsValue text 11 13 < 24 && digitsValue text 14 16 < 60 && digitsValue text 17 19 < 60

def MarkTimestamp.parse (value : String) : Except MarkAdapterError MarkTimestamp :=
  if isUtcRfc3339Seconds value then .ok ⟨value⟩ else .error .invalidTimestamp

inductive MarkRequest
  | fetch (path : String) (auth ifNoneMatch : Option String)
      (ifModifiedSince : Option MarkTimestamp)
  | versions (path : String) (auth : Option String)
  | other (verb path : String)
  deriving DecidableEq

abbrev Metadata := List (String × String)

def Metadata.get (metadata : Metadata) (key : String) : Option String :=
  metadata.lookup key

def isMetadataKeyCharacter (character : Char) : Bool :=
  isAsciiDigit character || ('a' ≤ character && character ≤ 'z') ||
    ('A' ≤ character && character ≤ 'Z') || character == '-' || character == '_'

def parseMetadataLines (metadata : Metadata) :
    List (List Char) → Except MarkAdapterError Metadata
  | [] => .ok metadata
  | line :: rest =>
    match splitOnce [':', ' '] line with
    | none => .error .malformedRequest
    | some (key, value) =>
      if key.isEmpty || !key.all isMetadataKeyCharacter || value.contains '\r' ||
          value.contains '\n' || (metadata.get (String.ofList key)).isSome then
        .error .malformedRequest
      else
        parseMetadataLines ((String.ofList key, String.ofList value) :: metadata) rest

def parseFrontmatter (tail : List Char) : Except MarkAdapterError (Metadata × List Char) :=
  if "---\n".toList.isPrefixOf tail then
    match splitOnce "\n---\n".toList (tail.drop 4) with
    | none => .error .malformedRequest
    | some (metadataText, body) =>
      if utf8Length metadataText > maxMetadataBytes then
        .error .requestTooLarge
      else
        (parseMetadataLines [] (textLines metadataText)).map fun metadata => (metadata, body)
  else
    .ok ([], tail)

def parseSince (since : Option String) : Except MarkAdapterError (Option MarkTimestamp) :=
  match since with
  | none => .ok none
  | some value => (MarkTimestamp.parse value).map some

def requestOf (verb path : String) (metadata : Metadata) :
    Except MarkAdapterError MarkRequest :=
  let auth := metadata.get "auth"
  if verb = "FETCH" then
    (parseSince (metadata.get "if-modified-since")).map fun since =>
      .fetch path auth (metadata.get "if-none-match") since
  else if verb = "VERSIONS" then
    .ok (.versions path auth)
  else if verb ∈ ["LIST", "PUBLISH", "ARCHIVE", "APPEND", "LOOKUP"] then
    .ok (.other verb path)
  else
    .error .malformedRequest

def decodeMarkRequest (bytes : ByteArray) : Except MarkAdapterError MarkRequest :=
  if bytes.size > maxRequestBytes + maxMetadataBytes then
    .error .requestTooLarge
  else
    match String.fromUTF8? bytes with
    | none => .error .malformedRequest
    | some text =>
      match splitOnce ['\n'] text.toList with
      | none => .error .malformedRequest
      | some (line, tail) =>
        if utf8Length line > maxRequestBytes || line.contains '\r' then
          .error .malformedRequest
        else
          match splitOnce [' '] line with
          | none => .error .malformedRequest
          | some (verb, path) =>
            if verb.isEmpty || path.isEmpty || path.contains ' ' then
              .error .malformedRequest
            else do
              let path ← validateRequestPath (String.ofList path)
              let (metadata, body) ← parseFrontmatter tail
              if !body.isEmpty then
                .error .malformedRequest
              requestOf (String.ofList verb) path metadata

end KnotEditor.Mark
