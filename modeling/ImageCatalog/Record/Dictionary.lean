set_option autoImplicit false

namespace ImageCatalog

namespace Dictionary

/-- Every name is smaller than the names after it. -/
def Sorted {α : Type} (entries : List (String × α)) : Prop :=
  entries.Pairwise fun a b => a.1 < b.1

/-- Sets the entry of a name, in place of the one it had. -/
def insert {α : Type} (name : String) (value : α) : List (String × α) → List (String × α)
  | [] => [(name, value)]
  | (key, other) :: rest =>
    if name < key then (name, value) :: (key, other) :: rest
    else if name = key then (name, value) :: rest
    else (key, other) :: insert name value rest

def erase {α : Type} (name : String) (entries : List (String × α)) : List (String × α) :=
  entries.filter fun entry => entry.1 != name

def find? {α : Type} (name : String) : List (String × α) → Option α
  | [] => none
  | (key, value) :: rest => if key = name then some value else find? name rest

/-- Collects entries in order; of two with one name the later stays. -/
def collect {α : Type} (entries : List (String × α)) : List (String × α) :=
  entries.foldl (fun found entry => insert entry.1 entry.2 found) []

theorem find?_insert {α : Type} (name key : String) (value : α) (entries : List (String × α)) :
    find? key (insert name value entries) =
      if name = key then some value else find? key entries := by
  induction entries with
  | nil => rfl
  | cons head rest ih =>
    obtain ⟨other, old⟩ := head
    rw [insert]
    split
    · rw [find?]
    · split
      · next same => subst same; rw [find?, find?]; split <;> rfl
      · next differ =>
        rw [find?, find?, ih]
        by_cases found : other = key
        · have unnamed : name ≠ key := fun h => differ (h.trans found.symm)
          rw [if_pos found, if_neg unnamed, if_pos found]
        · rw [if_neg found, if_neg found]

theorem find?_erase {α : Type} (name key : String) (entries : List (String × α)) :
    find? key (erase name entries) = if name = key then none else find? key entries := by
  induction entries with
  | nil => simp [erase, find?]
  | cons head rest ih =>
    obtain ⟨other, old⟩ := head
    by_cases same : other = name
    · have erased : erase name ((other, old) :: rest) = erase name rest := by simp [erase, same]
      rw [erased, ih, find?, same]
      by_cases found : name = key
      · rw [if_pos found, if_pos found]
      · rw [if_neg found, if_neg found, if_neg found]
    · have kept : erase name ((other, old) :: rest) = (other, old) :: erase name rest := by
        simp [erase, same]
      rw [kept, find?, find?, ih]
      by_cases found : other = key
      · have unnamed : name ≠ key := fun h => same (found.trans h.symm)
        rw [if_pos found, if_neg unnamed, if_pos found]
      · rw [if_neg found, if_neg found]

theorem sorted_nil {α : Type} : Sorted ([] : List (String × α)) := List.Pairwise.nil

theorem mem_insert {α : Type} {name : String} {value : α} {entry : String × α}
    {entries : List (String × α)} (h : entry ∈ insert name value entries) :
    entry = (name, value) ∨ entry ∈ entries := by
  induction entries with
  | nil => simpa [insert] using h
  | cons head rest ih =>
    rw [insert] at h
    split at h
    · simpa using h
    · split at h <;> simp at h ⊢ <;> grind

theorem sorted_insert {α : Type} (name : String) (value : α) {entries : List (String × α)}
    (h : Sorted entries) : Sorted (insert name value entries) := by
  induction entries with
  | nil => simp [insert, Sorted]
  | cons head rest ih =>
    obtain ⟨below, tail⟩ := List.pairwise_cons.1 h
    rw [insert]
    split
    · next first =>
      refine List.pairwise_cons.2 ⟨fun entry mem => ?_, h⟩
      rcases List.mem_cons.1 mem with rfl | mem
      · exact first
      · exact String.lt_trans first (below entry mem)
    · next notFirst =>
      split
      · next same => exact List.pairwise_cons.2 ⟨fun entry mem => same ▸ below entry mem, tail⟩
      · next differ =>
        refine List.pairwise_cons.2 ⟨fun entry mem => ?_, ih tail⟩
        rcases mem_insert mem with rfl | mem
        · exact String.not_le.1 fun le =>
            differ (String.le_antisymm le (String.not_lt.1 notFirst))
        · exact below entry mem

theorem sorted_erase {α : Type} (name : String) {entries : List (String × α)}
    (h : Sorted entries) : Sorted (erase name entries) := List.Pairwise.filter _ h

theorem sorted_collect {α : Type} (entries : List (String × α)) : Sorted (collect entries) := by
  suffices ∀ found : List (String × α), Sorted found →
      Sorted (entries.foldl (fun found entry => insert entry.1 entry.2 found) found) from
    this [] sorted_nil
  induction entries with
  | nil => exact fun _ h => h
  | cons head rest ih => exact fun found h => ih _ (sorted_insert head.1 head.2 h)

end Dictionary

end ImageCatalog
