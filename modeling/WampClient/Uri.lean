import WampClient.Text.Blank

/-! URIs name realms, procedures, topics and the reasons of errors. A URI is a row of components
with points between them; a pattern may leave components empty, which then match anything. The
empty text is no URI, but it is the default where none was given. -/
namespace WampClient

/-- A text that cannot serve as a URI, or as a pattern. -/
structure InvalidUri where
  text : String
  deriving DecidableEq, Repr

def InvalidUri.message (e : InvalidUri) : String := "invalid URI: " ++ e.text

structure Uri where
  text : String
  deriving DecidableEq, Repr, Inhabited

/-- A URI whose components may be empty. -/
structure UriPattern where
  text : String
  deriving DecidableEq, Repr, Inhabited

namespace Uri

/-- What a component is made of: neither the point that ends it, nor `#`, nor white space. -/
def isNameChar (c : Char) : Bool := !(c == '.' || c == '#' || Text.isBlank c)

/-- Reads on through a URI; `begun` tells whether the present component has a character yet. -/
def scan (begun : Bool) : List Char → Bool
  | [] => begun
  | c :: rest => if c = '.' then begun && scan false rest else isNameChar c && scan true rest

def isValidText (s : String) : Bool := scan false s.toList

def isValid (u : Uri) : Bool := isValidText u.text

def ofString (s : String) : Except InvalidUri Uri :=
  if isValidText s then .ok ⟨s⟩ else .error ⟨s⟩

def isEmpty (u : Uri) : Bool := u.text.isEmpty

/-- The runs of characters between the points; one more than there are points. -/
def splitPoints : List Char → List (List Char)
  | [] => [[]]
  | c :: rest =>
    if c = '.' then [] :: splitPoints rest
    else match splitPoints rest with
      | [] => [[c]]
      | first :: others => (c :: first) :: others

def components (u : Uri) : List String := (splitPoints u.text.toList).map String.ofList

def toPattern (u : Uri) : UriPattern := ⟨u.text⟩

end Uri

namespace UriPattern

def isValidText (s : String) : Bool := s.toList.all fun c => c == '.' || Uri.isNameChar c

def isValid (p : UriPattern) : Bool := isValidText p.text

def ofString (s : String) : Except InvalidUri UriPattern :=
  if isValidText s then .ok ⟨s⟩ else .error ⟨s⟩

/-- A pattern without empty components is a URI. -/
def toUri (p : UriPattern) : Except InvalidUri Uri := Uri.ofString p.text

end UriPattern

end WampClient
