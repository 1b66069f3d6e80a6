import Stencil.Markup.Directive
import Stencil.Markup.Profile
import Stencil.Source.Encoding

/-! Markup headers: the declaration that a directive writes in front of a
document, such as `<?xml version="1.0" encoding="utf-8"?>`. -/

namespace Stencil
namespace Markup

/-- A markup declaration with its attributes in the order they are written. -/
structure Header where
  kind : Text
  versionKey : Text
  encoding : Text
  attributes : List (Text × Text)
  deriving DecidableEq, Repr

namespace Header

def find? (name : Text) (attributes : List (Text × Text)) : Option Text :=
  (attributes.find? fun entry => entry.1 = name).map Prod.snd

def encodingKey : Text := "encoding".toList

def utf8Label : Text := "utf-8".toList

/-- The declared encoding and the attributes with it: the first declared one must
be UTF-8, and a missing one is put at the end. -/
def withEncoding (attributes : List (Text × Text)) :
    Except Cause (Text × List (Text × Text)) :=
  match find? encodingKey attributes with
  | none => .ok (utf8Label, attributes ++ [(encodingKey, utf8Label)])
  | some value =>
      if Encoding.foldLabel value = "utf8".toList then .ok (value, attributes)
      else .error (.unsupportedHeaderEncoding value)

/-- The attributes with a version, which is put in front if it is missing. -/
def withVersion (profile : Profile) (attributes : List (Text × Text)) :
    List (Text × Text) :=
  match find? profile.versionKey attributes with
  | some _ => attributes
  | none => (profile.versionKey, profile.defaultVersion) :: attributes

def ofDirective (line : Nat) (directive : Directive) : Except Fault (Header × Profile) :=
  match Profile.ofKind? directive.kind with
  | none => .error (.parse line (.unknownHeaderKind directive.kind))
  | some profile =>
      match withEncoding directive.attributes with
      | .error cause => .error (.parse line cause)
      | .ok (encoding, attributes) =>
          .ok
            ({ kind := profile.kind
               versionKey := profile.versionKey
               encoding := encoding
               attributes := withVersion profile attributes }, profile)

def version (header : Header) : Option Text :=
  find? header.versionKey header.attributes

def assignment (name value : Text) : Text :=
  ' ' :: name ++ "=\x22".toList ++ value ++ "\x22".toList

/-- The declaration line, with every value written as it was declared. -/
def render (header : Header) : Text :=
  "<?".toList ++ header.kind ++
    header.attributes.flatMap (fun entry => assignment entry.1 entry.2) ++
    "?>".toList

end Header

end Markup
end Stencil
