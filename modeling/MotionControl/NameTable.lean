/-! Values under distinct names, kept in the order of the names. -/
namespace MotionControl

/-- A finite map from names. -/
structure NameTable (β : Type) where
  toList : List (String × β)
  sorted : toList.Pairwise (·.1 < ·.1) := by simp

namespace NameTable
variable {β : Type}

instance : EmptyCollection (NameTable β) := ⟨{ toList := [] }⟩
instance : Inhabited (NameTable β) := ⟨∅⟩
instance [BEq β] : BEq (NameTable β) := ⟨fun a b => a.toList == b.toList⟩

@[ext] theorem ext {a b : NameTable β} (h : a.toList = b.toList) : a = b := by
  cases a; cases b; cases h; rfl

/-- A list of entries with one replaced, or put where its name belongs. -/
def insertEntry (name : String) (value : β) : List (String × β) → List (String × β)
  | [] => [(name, value)]
  | (n, v) :: rest =>
    if name < n then (name, value) :: (n, v) :: rest
    else if n < name then (n, v) :: insertEntry name value rest
    else (name, value) :: rest

private theorem mem_insertEntry {name : String} {value : β} {entries : List (String × β)}
    {e : String × β} (h : e ∈ insertEntry name value entries) :
    e = (name, value) ∨ e ∈ entries := by
  induction entries with
  | nil => simpa [insertEntry] using h
  | cons first rest ih =>
    obtain ⟨n, v⟩ := first
    simp only [insertEntry] at h
    split at h
    · simpa using h
    · split at h
      · rcases List.mem_cons.mp h with h | h
        · exact .inr (by simp [h])
        · exact (ih h).imp_right (List.mem_cons_of_mem _)
      · rcases List.mem_cons.mp h with h | h
        · exact .inl h
        · exact .inr (List.mem_cons_of_mem _ h)

private theorem insertEntry_sorted (name : String) (value : β) (entries : List (String × β))
    (h : entries.Pairwise (·.1 < ·.1)) : (insertEntry name value entries).Pairwise (·.1 < ·.1) := by
  induction entries with
  | nil => simp [insertEntry]
  | cons first rest ih =>
    obtain ⟨n, v⟩ := first
    have ⟨hn, hr⟩ := List.pairwise_cons.mp h
    simp only [insertEntry]
    split
    · rename_i hlt
      refine List.pairwise_cons.mpr ⟨fun e he => ?_, h⟩
      rcases List.mem_cons.mp he with rfl | he
      · exact hlt
      · exact String.lt_trans hlt (hn e he)
    · split
      · rename_i hlt
        refine List.pairwise_cons.mpr ⟨fun e he => ?_, ih hr⟩
        rcases mem_insertEntry he with rfl | he
        · exact hlt
        · exact hn e he
      · rename_i hle hge
        have : n = name := String.le_antisymm (String.not_lt.mp hle) (String.not_lt.mp hge)
        subst this
        exact List.pairwise_cons.mpr ⟨hn, hr⟩

def insert (t : NameTable β) (name : String) (value : β) : NameTable β where
  toList := insertEntry name value t.toList
  sorted := insertEntry_sorted name value _ t.sorted

/-- The entries of a list, the last of one name taking effect. -/
def ofList (entries : List (String × β)) : NameTable β :=
  entries.foldl (fun t e => t.insert e.1 e.2) ∅

def find? (t : NameTable β) (name : String) : Option β := t.toList.lookup name

def contains (t : NameTable β) (name : String) : Bool := (t.find? name).isSome

def names (t : NameTable β) : List String := t.toList.map (·.1)

end NameTable

end MotionControl
