import GoCell.Number.Binary64

/-!
JSON documents. The members of an object are kept in increasing order of their
keys, each key once.
-/

namespace GoCell

inductive Json
  | null
  | bool (b : Bool)
  | integer (n : Int)
  | real (x : Binary64)
  | string (s : String)
  | array (items : List Json)
  | object (members : List (String × Json))

namespace Json

/-- Sets the member with this key in an ordered list of members. -/
def setMember {α : Type} (key : String) (value : α) :
    List (String × α) → List (String × α)
  | [] => [(key, value)]
  | (k, v) :: rest =>
    if key < k then (key, value) :: (k, v) :: rest
    else if key = k then (key, value) :: rest
    else (k, v) :: setMember key value rest

theorem mem_setMember_self {α : Type} (key : String) (value : α)
    (members : List (String × α)) : (key, value) ∈ setMember key value members := by
  induction members with
  | nil => simp [setMember]
  | cons m rest ih =>
    obtain ⟨k, v⟩ := m
    simp only [setMember]
    split
    · simp
    · split
      · simp
      · simp [ih]

end Json

end GoCell
