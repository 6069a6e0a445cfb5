import LayeredConfig.Text

/-! File paths. A path is its root and its segments; empty segments and single dots are dropped,
and double dots are kept. -/

namespace LayeredConfig

structure Path where
  root : Text
  segments : List Text
deriving DecidableEq, Repr

namespace Path

def slash : CodePoint := .scalar '/'

def ofText (t : Text) : Path where
  root := match (t.takeWhile (· = slash)).length with
    | 0 => []
    | 2 => [slash, slash]
    | _ => [slash]
  segments := (Text.fields slash t).filter fun s => s ≠ [] && s ≠ ("." : Text)

/-- The path written out; a path without root and segments is a dot. -/
def text (p : Path) : Text :=
  if p.root.isEmpty && p.segments.isEmpty then "." else p.root ++ Text.join "/" p.segments

/-- The last segment from its last dot on, if something stands before and after the dot. -/
def extension (p : Path) : Text :=
  let name := p.segments.getLast?.getD []
  let after := name.reverse.takeWhile (· ≠ .scalar '.')
  if after.isEmpty || name.length ≤ after.length + 1 then [] else .scalar '.' :: after.reverse

def parent (p : Path) : Path := ⟨p.root, p.segments.dropLast⟩

end Path

end LayeredConfig
