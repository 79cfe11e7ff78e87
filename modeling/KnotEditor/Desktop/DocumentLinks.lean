import KnotEditor.Library.PercentEncoding
import KnotEditor.PathText
import KnotEditor.Text
import Mathlib.Data.List.Infix

/-! Links between saved files, written into the source text: the relative URL from one file to
another, its Djot markup, and the path such a URL names. Nothing here touches a file. -/

namespace KnotEditor.Desktop

structure PercentCodec where
  utf8PercentEncode : (UInt8 → Bool) → List UInt8 → List UInt8
  percentDecode : List UInt8 → List UInt8

structure PercentCodec.Documented (codec : PercentCodec) : Prop where
  encodes : ∀ escapes bytes,
    codec.utf8PercentEncode escapes bytes = PercentEncoding.encode escapes bytes
  decodes : ∀ bytes, codec.percentDecode bytes = PercentEncoding.decode bytes

def asciiText (bytes : List UInt8) : List Char := bytes.map fun byte => Char.ofNat byte.toNat

/-- `target.split(['#', '?']).next()`. -/
def beforeFragment (target : String) : List Char :=
  target.toList.takeWhile fun character => character ≠ '#' && character ≠ '?'

namespace DocumentLinks

/-- What is escaped in a component: everything but letters, digits and `-`, `_`, `.`, `~`. -/
def pathComponent (byte : UInt8) : Bool :=
  let code := byte.toNat
  !((48 ≤ code && code ≤ 57) || (65 ≤ code && code ≤ 90) || (97 ≤ code && code ≤ 122) ||
    code == 45 || code == 95 || code == 46 || code == 126)

structure Relationship where
  slug : String
  iri : String

def relationship (slug : String) : Relationship := ⟨slug, "https://mere.computer/ns/rel#" ++ slug⟩

def relationships : List Relationship :=
  ["cites", "quotes", "supports", "contradicts", "questions", "elaborates", "example-of",
    "summarizes"].map relationship

def nameTexts (path : FilePath) : Option (List String) :=
  (path.filterMap FilePath.nameOf).mapM String.fromUTF8?

def normalizeComponent (normalized : FilePath) : PathComponent → Except String FilePath
  | .rootDir => .ok [.rootDir]
  | .curDir => .ok normalized
  | .parentDir =>
    match normalized.parent with
    | none => .error "A document path escapes its filesystem root"
    | some parent => .ok parent
  | .normal value =>
    if (String.fromUTF8? value).all fun value => value.toList.contains '\\' then
      .error "A document path is not portable as a local link"
    else .ok (normalized ++ [.normal value])

def normalizedPath (path : FilePath) : Except String FilePath :=
  match nameTexts path with
  | none => .error "Document paths must be UTF-8"
  | some texts =>
    if !path.isAbsolute || texts.any fun text => text.toList.any isControl then
      .error "Document links require saved absolute paths without control characters"
    else path.foldlM normalizeComponent []

def commonLength (source target : FilePath) : Nat :=
  ((source.zip target).takeWhile fun pair => pair.1 == pair.2).length

def encodeComponent (codec : PercentCodec) : PathComponent → Except String (List Char)
  | .normal value =>
    match String.fromUTF8? value with
    | none => .error "The target path is not UTF-8"
    | some value => .ok (asciiText (codec.utf8PercentEncode pathComponent (utf8Bytes value.toList)))
  | _ => .error "The documents must share a filesystem root"

def relativeUrl (codec : PercentCodec) (source target : FilePath) : Except String String := do
  let source ← normalizedPath source
  let target ← normalizedPath target
  match source.parent with
  | none => .error "The source must name a saved file"
  | some parent =>
    if target.fileName = none then
      .error "The target must name a saved file"
    else
      let common := commonLength parent target
      if common = 0 ∨ parent.head? ≠ target.head? then
        .error "The documents must share a filesystem root"
      else do
        let names ← (target.drop common).mapM (encodeComponent codec)
        let url := ['/'].intercalate
          (List.replicate (parent.length - common) ['.', '.'] ++ names)
        .ok (String.ofList (if ['.', '.', '/'] <+: url then url else ['.', '/'] ++ url))

def isAsciiPunctuation (character : Char) : Bool :=
  let code := character.toNat
  (33 ≤ code && code ≤ 47) || (58 ≤ code && code ≤ 64) || (91 ≤ code && code ≤ 96) ||
    (123 ≤ code && code ≤ 126)

def escapeLabel (label : List Char) : List Char :=
  label.flatMap fun character =>
    if isAsciiPunctuation character then ['\\', character] else [character]

def markup (codec : PercentCodec) (source target : FilePath) (selected targetLabel : String)
    (relation : Option String) : Except String String :=
  let label := if selected.isEmpty then targetLabel else selected
  if label.isEmpty || label.toList.any isControl then
    .error "A document link needs a nonempty single-line label"
  else do
    let url ← relativeUrl codec source target
    let result := "[" ++ String.ofList (escapeLabel label.toList) ++ "](" ++ url ++ ")"
    match relation with
    | none => .ok result
    | some value =>
      match relationships.find? fun relation => relation.slug = value || relation.iri = value with
      | none => .error "Choose a supported document relationship"
      | some relation => .ok (result ++ "\x7brel=\"" ++ relation.iri ++ "\"\x7d")

def decodeComponent (codec : PercentCodec) (component : List Char) : Option String :=
  let bytes := utf8Bytes component
  if PercentEncoding.malformed bytes then none
  else
    match fromUtf8 (codec.percentDecode bytes) with
    | none => none
    | some decoded =>
      if decoded.toList.contains '/' || decoded.toList.contains '\\' ||
          decoded.toList.any isControl then none
      else some decoded

def resolveComponent (codec : PercentCodec) (result : FilePath) (component : List Char) :
    Option FilePath := do
  let decoded ← decodeComponent codec component
  if decoded = "" ∨ decoded = "." then some result
  else if decoded = ".." then result.parent
  else some (result ++ [.normal decoded.toUTF8])

def refusesTarget (raw : List Char) : Bool :=
  raw.isEmpty || raw.head? == some '/' || raw.contains '\\' || raw.any isControl ||
    ((raw.splitOn '/').headD []).contains ':'

def resolveLocal (codec : PercentCodec) (source : FilePath) (target : String) :
    Option FilePath := do
  let source ← (normalizedPath source).toOption
  let raw := beforeFragment target
  if refusesTarget raw then none
  else
    let parent ← source.parent
    let result ← (raw.splitOn '/').foldlM (resolveComponent codec) parent
    (normalizedPath result).toOption

end DocumentLinks

namespace CatalogLinks

def cleanComponent (clean : FilePath) : PathComponent → Option FilePath
  | .normal part => some (clean ++ [.normal part])
  | .curDir => some clean
  | .parentDir => clean.parent
  | .rootDir => none

def refusesTarget (target : String) : Bool :=
  target.isEmpty || decide ([':', '/', '/'] <:+: target.toList) ||
    decide ("mailto:".toList <+: target.toList)

def rawPath (source : FilePath) (target : String) : FilePath :=
  match target.toList with
  | '/' :: rooted => FilePath.components (utf8Bytes rooted)
  | text => (source.parent.getD []).join (FilePath.components (utf8Bytes text))

def resolveLocal (codec : PercentCodec) (source : FilePath) (target : String) :
    Option FilePath := do
  let target := trim (String.ofList (beforeFragment target))
  if refusesTarget target then none
  else
    let target ← fromUtf8 (codec.percentDecode (utf8Bytes target.toList))
    (rawPath source target).foldlM cleanComponent []

end CatalogLinks

end KnotEditor.Desktop
