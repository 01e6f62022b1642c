import AutomatonGrammar.Sorted.Set

/-!
# Finite maps in ascending key order

A `SortedMap` is the list of its entries, keys strictly ascending. Reading is by `get?`, and that view
is complete:

    m = n ↔ ∀ k, m.get? k = n.get? k                            (SortedMap.ext_iff_get?)
    (m.insert k v).get? j = if j = k then some v else m.get? j  (SortedMap.get?_insert)
    (k, v) ∈ m.toList ↔ m.get? k = some v                       (SortedMap.mem_toList_iff)
-/

namespace AutomatonGrammar

/-- A finite map, kept as the list of its entries, keys strictly ascending. -/
structure SortedMap (κ β : Type) [LT κ] where
  toList : List (κ × β)
  ascending : toList.Pairwise (·.1 < ·.1)

namespace SortedMap

/-! ## Lists of entries -/

section Entries

variable {κ β : Type} [DecidableEq κ]

/-- The value beside the first `k` in a list of entries. -/
def lookupList (k : κ) : List (κ × β) → Option β
  | [] => none
  | (j, v) :: es => if k = j then some v else lookupList k es

theorem mem_of_lookupList {k : κ} {v : β} {l : List (κ × β)} (h : lookupList k l = some v) :
    (k, v) ∈ l := by
  induction l with
  | nil => simp [lookupList] at h
  | cons e es ih => grind [lookupList]

theorem lookupList_eq_none_iff {k : κ} {l : List (κ × β)} :
    lookupList k l = none ↔ ∀ v, (k, v) ∉ l := by
  induction l with
  | nil => simp [lookupList]
  | cons e es ih => grind [lookupList]

/-- An entry of an ascending list is what the look-up of its key finds. -/
theorem lookupList_of_mem [LE κ] [LT κ] [Std.LawfulOrderLT κ] {k : κ} {v : β} {l : List (κ × β)}
    (h : l.Pairwise (·.1 < ·.1)) (hm : (k, v) ∈ l) : lookupList k l = some v := by
  induction l with
  | nil => simp at hm
  | cons e es ih =>
    have ⟨he, hes⟩ := List.pairwise_cons.1 h
    rcases List.mem_cons.1 hm with rfl | hm
    · simp [lookupList]
    · have hne : k ≠ e.1 := fun hk => absurd (hk ▸ he _ hm : e.1 < e.1) Std.lt_irrefl
      simpa [lookupList, hne] using ih hes hm

/-- Puts `v` at `k` in an ascending list of entries, in place of a value that is there. -/
def insertList [LT κ] [DecidableLT κ] (k : κ) (v : β) : List (κ × β) → List (κ × β)
  | [] => [(k, v)]
  | (j, w) :: es =>
    if k < j then (k, v) :: (j, w) :: es
    else if k = j then (k, v) :: es
    else (j, w) :: insertList k v es

theorem lookupList_insertList [LT κ] [DecidableLT κ] (k : κ) (v : β) (j : κ) (l : List (κ × β)) :
    lookupList j (insertList k v l) = if j = k then some v else lookupList j l := by
  induction l with
  | nil => rfl
  | cons e es ih => grind [lookupList, insertList]

theorem mem_insertList [LT κ] [DecidableLT κ] {k : κ} {v : β} {e : κ × β} {l : List (κ × β)}
    (h : e ∈ insertList k v l) : e = (k, v) ∨ e ∈ l := by
  induction l with
  | nil => simpa [insertList] using h
  | cons d ds ih => grind [insertList]

end Entries

/-! ## Operations -/

section Basic

variable {κ β : Type} [LT κ]

theorem toList_injective : ∀ {m n : SortedMap κ β}, m.toList = n.toList → m = n
  | ⟨_, _⟩, ⟨_, _⟩, rfl => rfl

instance [DecidableEq κ] [DecidableEq β] : DecidableEq (SortedMap κ β) := fun m n =>
  if h : m.toList = n.toList then isTrue (toList_injective h)
  else isFalse fun e => h (e ▸ rfl)

def empty : SortedMap κ β := ⟨[], .nil⟩

instance : EmptyCollection (SortedMap κ β) := ⟨empty⟩

instance : Inhabited (SortedMap κ β) := ⟨∅⟩

def size (m : SortedMap κ β) : Nat := m.toList.length

/-- The keys of `m`. -/
def keys (m : SortedMap κ β) : SortedSet κ :=
  ⟨m.toList.map Prod.fst, List.pairwise_map.2 m.ascending⟩

/-- The map that sends each element `k` of `s` to `f k`. -/
def ofKeys (s : SortedSet κ) (f : κ → β) : SortedMap κ β :=
  ⟨s.toList.map fun k => (k, f k), List.pairwise_map.2 s.ascending⟩

@[simp] theorem toList_empty : (∅ : SortedMap κ β).toList = [] := rfl

@[simp] theorem toList_ofKeys (s : SortedSet κ) (f : κ → β) :
    (ofKeys s f).toList = s.toList.map fun k => (k, f k) := rfl

variable [DecidableEq κ]

/-- The value at `k`, if there is one. -/
def get? (m : SortedMap κ β) (k : κ) : Option β := lookupList k m.toList

@[simp] theorem get?_empty (k : κ) : (∅ : SortedMap κ β).get? k = none := rfl

theorem get?_ofKeys (s : SortedSet κ) (f : κ → β) (k : κ) :
    (ofKeys s f).get? k = if k ∈ s then some (f k) else none := by
  obtain ⟨l, _⟩ := s
  show lookupList k (l.map fun k => (k, f k)) = if k ∈ l then some (f k) else none
  induction l with
  | nil => rfl
  | cons x xs ih => grind [lookupList]

end Basic

variable {κ β : Type} [LE κ] [LT κ] [Std.LawfulOrderLT κ] [DecidableEq κ]

theorem mem_toList_iff {m : SortedMap κ β} {k : κ} {v : β} :
    (k, v) ∈ m.toList ↔ m.get? k = some v :=
  ⟨lookupList_of_mem m.ascending, mem_of_lookupList⟩

theorem mem_keys {m : SortedMap κ β} {k : κ} : k ∈ m.keys ↔ (m.get? k).isSome := by
  show k ∈ m.toList.map Prod.fst ↔ _
  rw [List.mem_map, Option.isSome_iff_exists]
  constructor
  · rintro ⟨⟨j, v⟩, hm, rfl⟩
    exact ⟨v, mem_toList_iff.1 hm⟩
  · rintro ⟨v, hv⟩
    exact ⟨(k, v), mem_toList_iff.2 hv, rfl⟩

variable [Std.IsLinearOrder κ]

/-- Two ascending lists of entries that answer every look-up alike are equal. -/
theorem eq_of_lookupList_eq : ∀ {l₁ l₂ : List (κ × β)}, l₁.Pairwise (·.1 < ·.1) →
    l₂.Pairwise (·.1 < ·.1) → (∀ k, lookupList k l₁ = lookupList k l₂) → l₁ = l₂
  | [], [], _, _, _ => rfl
  | [], (k, _) :: _, _, _, h => by simpa [lookupList] using h k
  | (k, _) :: _, [], _, _, h => by simpa [lookupList] using h k
  | (a, v) :: l₁, (b, w) :: l₂, h₁, h₂, h => by
    have ⟨ha, h₁'⟩ := List.pairwise_cons.1 h₁
    have ⟨hb, h₂'⟩ := List.pairwise_cons.1 h₂
    have hab : a = b := by
      have hva : lookupList a ((b, w) :: l₂) = some v := by rw [← h a]; simp [lookupList]
      have hwb : lookupList b ((a, v) :: l₁) = some w := by rw [h b]; simp [lookupList]
      rcases List.mem_cons.1 (mem_of_lookupList hva) with e | m
      · exact congrArg Prod.fst e
      · rcases List.mem_cons.1 (mem_of_lookupList hwb) with e | m'
        · exact (congrArg Prod.fst e).symm
        · exact absurd (Std.lt_trans (ha _ m') (hb _ m)) Std.lt_irrefl
    subst hab
    have hvw : v = w := by simpa [lookupList] using h a
    subst hvw
    refine congrArg ((a, v) :: ·) (eq_of_lookupList_eq h₁' h₂' fun k => ?_)
    by_cases hk : k = a
    · subst hk
      have absent : ∀ {l : List (κ × β)}, (∀ e ∈ l, k < e.1) → lookupList k l = none :=
        fun hl => lookupList_eq_none_iff.2 fun x m => absurd (hl _ m) Std.lt_irrefl
      rw [absent ha, absent hb]
    · simpa [lookupList, hk] using h k

theorem ext_iff_get? {m n : SortedMap κ β} : m = n ↔ ∀ k, m.get? k = n.get? k :=
  ⟨fun h _ => h ▸ rfl, fun h => toList_injective (eq_of_lookupList_eq m.ascending n.ascending h)⟩

variable [DecidableLT κ]

theorem pairwise_insertList {k : κ} {v : β} {l : List (κ × β)} (h : l.Pairwise (·.1 < ·.1)) :
    (insertList k v l).Pairwise (·.1 < ·.1) := by
  induction l with
  | nil => simp [insertList]
  | cons e es ih =>
    have ⟨he, hes⟩ := List.pairwise_cons.1 h
    rw [insertList]
    split
    · next hlt => exact .cons (fun z hz => (List.mem_cons.1 hz).elim (· ▸ hlt)
        fun m => Std.lt_trans hlt (he z m)) h
    · next hlt =>
      split
      · next heq => exact .cons (fun z hz => (heq : k = e.1) ▸ he z hz) hes
      · next hne =>
        refine .cons (fun z hz => (mem_insertList hz).elim (fun e' => ?_) (he z)) (ih hes)
        rcases Std.lt_trichotomy k e.1 with h' | h' | h'
        · exact absurd h' hlt
        · exact absurd h' hne
        · exact e' ▸ h'

/-- The map that sends `k` to `v` and agrees with `m` elsewhere. -/
def insert (m : SortedMap κ β) (k : κ) (v : β) : SortedMap κ β :=
  ⟨insertList k v m.toList, pairwise_insertList m.ascending⟩

theorem get?_insert (m : SortedMap κ β) (k : κ) (v : β) (j : κ) :
    (m.insert k v).get? j = if j = k then some v else m.get? j :=
  lookupList_insertList k v j m.toList

/-- The map of the entries of `l`; of two entries with one key the later counts. -/
def ofList (l : List (κ × β)) : SortedMap κ β := l.foldl (fun m e => m.insert e.1 e.2) ∅

end SortedMap

end AutomatonGrammar
