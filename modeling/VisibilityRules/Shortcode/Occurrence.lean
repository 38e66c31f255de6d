import VisibilityRules.Shortcode.AttributeText
import VisibilityRules.Shortcode.Removal

set_option autoImplicit false

/-!
One tag of an element as it stands in a text.
-/
namespace VisibilityRules.Shortcode

inductive Form where
  | selfClosing
  | lone
  | enclosing (body : String)
  deriving DecidableEq, Repr

structure Occurrence where
  tag : String
  -- The byte of the text at which the occurrence starts.
  start : Nat
  -- An extra bracket stands in front of the tag.
  leading : Bool
  -- The text between the name and the closing bracket.
  attributeText : String
  form : Form
  -- An extra bracket stands behind the tag.
  trailing : Bool
  deriving DecidableEq, Repr

namespace Occurrence

def closingTag (tag : String) : String := "[/" ++ tag ++ "]"

def text (o : Occurrence) : String :=
  "[" ++ (if o.leading then "[" else "") ++ o.tag ++ o.attributeText ++
    (match o.form with
      | .selfClosing => "/]"
      | .lone => "]"
      | .enclosing body => "]" ++ body ++ closingTag o.tag) ++
    (if o.trailing then "]" else "")

def stop (o : Occurrence) : Nat := o.start + Text.Utf8.size o.text.toList

def span (o : Occurrence) : Span := ⟨o.start, o.stop⟩

def isEscaped (o : Occurrence) : Bool :=
  -- Doubled brackets on both sides make the tag literal text.
  o.leading && o.trailing

def isSelfClosing (o : Occurrence) : Bool := o.form == .selfClosing

def body? (o : Occurrence) : Option String :=
  match o.form with
  | .enclosing body => some body
  | _ => none

def attributes (o : Occurrence) : Attributes := readAttributes o.attributeText

end Occurrence

def removeAll (text : String) (occurrences : List Occurrence) : String :=
  removeSpans text (occurrences.map Occurrence.span)

end VisibilityRules.Shortcode
