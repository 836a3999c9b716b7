/-
Paths as they are written, and the parts that they name: separators in a row, and parts that stay
where they are, count once or not at all. The path above another one keeps the way it is written.

A path is made of bytes. Those that are named in arguments and settings are the bytes of texts, but
any bytes without a zero can be a path.
-/
import Fixtures.Text.Utf8

namespace Fixtures

/-- The name of a file or directory. -/
abbrev FileName := List UInt8

namespace FileName

/-- The name that a text is. -/
def ofText (s : String) : FileName := s.toUTF8.data.toList

/-- A name as text, with marks for the bytes that are none. -/
def display (name : FileName) : String := String.ofList (Utf8.shown name)

/-- The name of a directory within itself. -/
def here : FileName := [0x2e]

/-- The way up. -/
def up : FileName := [0x2e, 0x2e]

end FileName

/-- A path, as it is written. -/
structure Path where
  bytes : List UInt8
  deriving DecidableEq, Inhabited

namespace Path

/-! ## Texts -/

/-- The path that a text is. -/
def ofText (s : String) : Path := ⟨s.toUTF8.data.toList⟩

/-- The text that a path is, if it is one. -/
def text? (p : Path) : Option String := String.fromUTF8? ⟨p.bytes.toArray⟩

/-- A path as text, with marks for the bytes that are none. -/
def display (p : Path) : String := String.ofList (Utf8.shown p.bytes)

/-! ## Parts -/

/-- The separator of parts, a slash. -/
def separator : UInt8 := 0x2f

/-- Splits bytes at the separators. -/
def split : List UInt8 → List FileName
  | [] => [[]]
  | b :: rest =>
    if b = separator then [] :: split rest
    else match split rest with
      | [] => [[b]]
      | first :: others => (b :: first) :: others

/-- Whether a segment between separators is a part of the path: an empty one and a single point are
not. -/
def isPart (segment : FileName) : Bool := segment ≠ [] && segment ≠ .here

/-- The bytes of the path up to each part behind the bytes `before`, the longest first. -/
def bytesBehind (before : List UInt8) : List FileName → List (List UInt8)
  | [] => []
  | segment :: rest =>
    let bytes := before ++ separator :: segment
    bytesBehind bytes rest ++ if isPart segment then [bytes] else []

/-- The path as it is written, up to each of its parts, the last one first. The root counts, and so
does the working directory if it is named in front. -/
def stages (p : Path) : List Path :=
  match split p.bytes with
  | [] | [[]] => []
  | [] :: rest => (bytesBehind [] rest ++ [[separator]]).map Path.mk
  | first :: rest => (bytesBehind first rest ++ [first]).map Path.mk

def isEmpty (p : Path) : Bool := p.bytes.isEmpty

/-- Whether the path starts at the root. -/
def isAbsolute (p : Path) : Bool := p.bytes.head? = some separator

/-- Whether separators stand at the end of the path. -/
def isEnded (p : Path) : Bool := p.bytes.getLast? = some separator

/-- The path without its last part, as it is written; nothing is above the root or the empty path. -/
def parent? (p : Path) : Option Path :=
  match p.stages with
  | [] => none
  | [only] => if only.bytes = [separator] then none else some ⟨[]⟩
  | _ :: above :: _ => some above

/-- The name that a path ends in; the way up is none. -/
def fileName? (p : Path) : Option FileName :=
  match ((split p.bytes).filter isPart).getLast? with
  | none => none
  | some name => if name = .up then none else some name

/-- A relative path below a directory, or an absolute one by itself. -/
def join (dir : Path) (below : Path) : Path :=
  if below.isAbsolute || dir.isEmpty then below
  else if dir.isEnded then ⟨dir.bytes ++ below.bytes⟩
  else ⟨dir.bytes ++ separator :: below.bytes⟩

/-- The path with another last name. -/
def withFileName (p : Path) (name : FileName) : Path :=
  match p.fileName?, p.parent? with
  | some _, some dir => dir.join ⟨name⟩
  | _, _ => p.join ⟨name⟩

end Path

end Fixtures
