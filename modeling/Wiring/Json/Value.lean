/-! JSON values, as far as settings and manifests need them. -/

namespace Wiring

mutual

/-- A JSON value. -/
inductive Json
  | null
  | bool (value : Bool)
  /-- A number written as digits alone and below 2 ^ 64. -/
  | natural (value : Nat)
  | otherNumber
  /-- Text; nothing when its escapes name half a surrogate pair and so no text at all. -/
  | text (value : Option String)
  | array (items : List Json)
  | object (members : List JsonMember)

/-- A key and its value; the key is text in the same sense. -/
inductive JsonMember
  | mk (key : Option String) (value : Json)

end

namespace JsonMember

/-- The key of a member, if it is text. -/
def key : JsonMember → Option String
  | mk key _ => key

/-- The value of a member. -/
def value : JsonMember → Json
  | mk _ value => value

end JsonMember

instance : Inhabited Json :=
  ⟨.null⟩

end Wiring
