/-! The source formats the writer opens, and the media types that name them. -/

namespace KnotEditor

inductive DocumentFormat
  | knot
  | markdown
  | djot
  | scroll
  | gemtext
  | micron
  | json
  deriving DecidableEq

def DocumentFormat.fromMediaType (value : String) : Option DocumentFormat :=
  if value = "text/vnd.knot" then some .knot
  else if value = "text/markdown" then some .markdown
  else if value = "text/djot" then some .djot
  else if value = "text/scroll" ∨ value = "text/x-scroll" then some .scroll
  else if value = "text/gemini" ∨ value = "text/x-gemini" then some .gemtext
  else if value = "application/vnd.knot.document+json" ∨ value = "application/json" then
    some .json
  else none

end KnotEditor
