import GlslMaterial.Glsl.Literal
import GlslMaterial.Source.Template
import GlslMaterial.Text.Blank
import GlslMaterial.Text.Keyword

/-!
Sources: the GLSL text of a stage while it is being written.

Code inserted at a marker goes directly above the line of the marker, so that a marker always
stands at the end of its section and later code follows earlier code. Marker lines are left out of
the finished text.
-/

set_option autoImplicit false

namespace GlslMaterial

structure Source where
  text : List Char
deriving DecidableEq, Inhabited

namespace Source

def empty : Source :=
  ⟨[]⟩

def ofTemplate (stage : Stage) : Source :=
  ⟨stage.template.toList⟩

def toString (s : Source) : String :=
  String.ofList s.text

def isEmpty (s : Source) : Bool :=
  s.text.isEmpty

/-- Byte offset of the first place where `symbol` stands as a word of its own. -/
def find? (s : Source) (symbol : String) : Option Nat :=
  Text.findKeyword s.text symbol.toList

def mentions (s : Source) (symbol : String) : Bool :=
  Text.hasKeyword symbol.toList s.text

def hasMarker (s : Source) (marker : Marker) : Bool :=
  s.mentions marker.text

def isDefined (s : Source) (name : String) : Bool :=
  s.mentions s!"#define {name}"

/-- One line of inserted code. Blank lines are empty, all others are indented. -/
def indented (pad line : List Char) : List Char :=
  if Text.isAllBlank line then ['\n'] else pad ++ Text.trimRight line ++ ['\n']

/-- The lines of inserted code; newlines at its end do not count. -/
def insertion (pad code : List Char) : List Char :=
  (Text.lines (Text.dropWhileRight (· == '\n') code)).flatMap (indented pad)

/-- The source with `code` above the line of `marker`, in the indentation of that line. There is
none where the source does not have the marker. -/
def insert? (s : Source) (marker : Marker) (code : String) : Option Source :=
  match Text.splitKeyword marker.text.toList s.text with
  | none => none
  | some (before, after) =>
    let above := Text.dropWhileRight (· != '\n') before
    let pad := before.drop above.length
    some ⟨above ++ insertion pad code.toList ++ pad ++ marker.text.toList ++ after⟩

def insert (s : Source) (marker : Marker) (code : String) : Source :=
  (s.insert? marker code).getD s

/-- Adds a definition, unless its line is there already. -/
def define (s : Source) (text : String) : Source :=
  if s.isDefined text then s else s.insert .defines s!"#define {text}"

/-- Adds the version line, unless there is one. -/
def setVersion (s : Source) (version : Nat) : Source :=
  if s.mentions "#version" then s else s.insert .version s!"#version {version}"

/-- Inserts literals one after the other as one piece of code. -/
def insertLiterals (s : Source) (marker : Marker) (literals : List Literal) : Source :=
  let code := String.join (literals.map Literal.text)
  if code.isEmpty then s else s.insert marker code

/-- Puts a literal behind the text. -/
def append (s : Source) (literal : Literal) : Source :=
  ⟨s.text ++ literal.text.toList⟩

def isMarkerLine (line : List Char) : Bool :=
  Marker.all.any fun marker => Text.trim line == marker.text.toList

/-- The finished text, without the marker lines. -/
def compiled (s : Source) : String :=
  String.ofList ((Text.linesWithEnds s.text).filter (fun line => !isMarkerLine line)).flatten

end Source

end GlslMaterial
