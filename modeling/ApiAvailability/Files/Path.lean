/-!
# Files/Path — file paths and their parts

A path is a text in which `/` separates segments. An empty segment stands for nothing, and so does
`.` where another segment comes before it; the last segment that stands for something is the file
name, unless it is `.` or `..`.
-/

namespace ApiAvailability.Files

/-- **A file path**, as it is written. -/
structure Path where
  text : String
  deriving DecidableEq

namespace Path

/-- The segments between the separators, empty ones included. -/
def segments (p : Path) : List String := (p.text.toList.splitOn '/').map String.ofList

/-- Whether the path starts at the root. -/
def isAbsolute (p : Path) : Bool := p.text.toList.head? = some '/'

/-- Whether a segment stands for nothing. -/
def isVoid (segment : String) : Bool := segment = "" || segment = "."

/-- A path from segments. -/
def ofSegments (ss : List String) : Path := ⟨"/".intercalate ss⟩

/-- The segments up to the last that stands for something, the last one first. -/
def reversed (p : Path) : List String := p.segments.reverse.dropWhile isVoid

/-- The name of the file, if the path ends in one. -/
def fileName? (p : Path) : Option String :=
  match p.reversed with
  | [] => none
  | name :: _ => if name = ".." then none else some name

/-- A file name in front of its last dot and behind it. A dot at the very front does not count. -/
def splitName (name : String) : String × Option String :=
  let cs := name.toList.reverse
  let after := (cs.takeWhile (· ≠ '.')).reverse
  match cs.dropWhile (· ≠ '.') with
  | _ :: before@(_ :: _) => (String.ofList before.reverse, some (String.ofList after))
  | _ => (name, none)

/-- The extension of the file name. -/
def extension? (p : Path) : Option String := p.fileName?.bind fun name => (splitName name).2

/-- The path with `ext` for the extension of its file name, or behind the file name if there is no
extension. A path without a file name stays as it is. -/
def setExtension (p : Path) (ext : String) : Path :=
  match p.fileName?, p.reversed with
  | some name, _ :: before => ofSegments (((splitName name).1 ++ "." ++ ext) :: before).reverse
  | _, _ => p

/-- **The path with another extension.** The old one is cut off the end of the path first; what is
left then may have no file name any more, as in `..x`, and stays as it is. -/
def withExtension (p : Path) (ext : String) : Path :=
  match p.extension? with
  | some old => setExtension ⟨String.ofList (p.text.toList.take (p.text.length - old.length))⟩ ext
  | none => p.setExtension ext

/-- The directory that the path's last segment stands in. The root and the empty path have none. -/
def parent? (p : Path) : Option Path :=
  match p.reversed with
  | [] => if p.text = "" || p.isAbsolute then none else some ⟨""⟩
  | _ :: before =>
    match before.dropWhile isVoid with
    | [] =>
      if p.isAbsolute then some ⟨"/"⟩
      else if p.segments.head? = some "." then some ⟨"."⟩
      else some ⟨""⟩
    | ss => some (ofSegments ss.reverse)

/-- A path and the directories above it, at most `fuel` of them. -/
def ancestorsWithin : Nat → Path → List Path
  | 0, p => [p]
  | fuel + 1, p =>
    match p.parent? with
    | some above => p :: ancestorsWithin fuel above
    | none => [p]

/-- **A path and the directories above it**, the innermost first. -/
def ancestors (p : Path) : List Path := ancestorsWithin p.segments.length p

/-- **A path below another.** An absolute path stands for itself. -/
def join (p : Path) (below : String) : Path :=
  if isAbsolute ⟨below⟩ then ⟨below⟩
  else if p.text = "" || p.text.toList.getLast? = some '/' then ⟨p.text ++ below⟩
  else ⟨p.text ++ "/" ++ below⟩

/-- A dot starts an extension only behind something else. -/
example : extension? ⟨"a.b.toml"⟩ = some "toml" ∧ extension? ⟨"dir.toml/op"⟩ = none ∧
    extension? ⟨".toml"⟩ = none ∧ extension? ⟨"op.toml/."⟩ = some "toml" := by decide +kernel

/-- The extension takes the place of the last one only. -/
example : (withExtension ⟨"st/a.b.c"⟩ "json.tmp").text = "st/a.b.json.tmp" ∧
    (withExtension ⟨".status"⟩ "json.tmp").text = ".status.json.tmp" ∧
    (withExtension ⟨"st/..c"⟩ "json.tmp").text = "st/.." := by decide +kernel

/-- A dot behind a separator is not a directory of its own, two dots are. -/
example : (ancestors ⟨"a/./b/."⟩).map (·.text) = ["a/./b/.", "a", ""] ∧
    (ancestors ⟨"/a/.."⟩).map (·.text) = ["/a/..", "/a", "/"] := by decide +kernel

end Path

end ApiAvailability.Files
