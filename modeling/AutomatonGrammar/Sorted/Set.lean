/-!
# Finite sets in ascending order

A `SortedSet` is the list of its elements, strictly ascending, with the order as a proof field. Two
sets with the same elements are therefore equal values:

    s = t ↔ ∀ x, x ∈ s ↔ x ∈ t        (SortedSet.ext_iff_mem)

and the order in which elements were given, or how often, leaves no trace.
-/

namespace AutomatonGrammar

/-- A finite set, kept as the strictly ascending list of its elements. -/
structure SortedSet (α : Type) [LT α] where
  toList : List α
  ascending : toList.Pairwise (· < ·)

namespace SortedSet

/-! ## Operations -/

section Basic

variable {α : Type} [LT α]

theorem toList_injective : ∀ {s t : SortedSet α}, s.toList = t.toList → s = t
  | ⟨_, _⟩, ⟨_, _⟩, rfl => rfl

instance [DecidableEq α] : DecidableEq (SortedSet α) := fun s t =>
  if h : s.toList = t.toList then isTrue (toList_injective h)
  else isFalse fun e => h (e ▸ rfl)

def empty : SortedSet α := ⟨[], .nil⟩

instance : EmptyCollection (SortedSet α) := ⟨empty⟩

instance : Inhabited (SortedSet α) := ⟨∅⟩

instance : Membership α (SortedSet α) := ⟨fun s x => x ∈ s.toList⟩

instance [DecidableEq α] (x : α) (s : SortedSet α) : Decidable (x ∈ s) :=
  inferInstanceAs (Decidable (x ∈ s.toList))

def isEmpty (s : SortedSet α) : Bool := s.toList.isEmpty

def size (s : SortedSet α) : Nat := s.toList.length

/-- The elements of `s` on which `p` holds. -/
def filter (p : α → Bool) (s : SortedSet α) : SortedSet α :=
  ⟨s.toList.filter p, s.ascending.filter p⟩

@[simp] theorem mem_toList {x : α} {s : SortedSet α} : x ∈ s.toList ↔ x ∈ s := .rfl

@[simp] theorem toList_empty : (∅ : SortedSet α).toList = [] := rfl

@[simp] theorem not_mem_empty (x : α) : x ∉ (∅ : SortedSet α) := List.not_mem_nil

@[simp] theorem toList_filter (p : α → Bool) (s : SortedSet α) :
    (s.filter p).toList = s.toList.filter p := rfl

@[simp] theorem mem_filter {p : α → Bool} {s : SortedSet α} {x : α} :
    x ∈ s.filter p ↔ x ∈ s ∧ p x = true := List.mem_filter

variable [DecidableLT α] [DecidableEq α]

/-- Puts `x` at its place in an ascending list, unless it is there already. -/
def insertList (x : α) : List α → List α
  | [] => [x]
  | y :: ys => if x < y then x :: y :: ys else if x = y then y :: ys else y :: insertList x ys

theorem mem_insertList {x z : α} {l : List α} : z ∈ insertList x l ↔ z = x ∨ z ∈ l := by
  induction l with
  | nil => simp [insertList]
  | cons y ys ih => grind [insertList]

end Basic

variable {α : Type} [LE α] [LT α] [Std.IsLinearOrder α] [Std.LawfulOrderLT α]

/-- Two strictly ascending lists with the same elements are equal. -/
theorem eq_of_mem_iff : ∀ {l₁ l₂ : List α}, l₁.Pairwise (· < ·) → l₂.Pairwise (· < ·) →
    (∀ x, x ∈ l₁ ↔ x ∈ l₂) → l₁ = l₂
  | [], [], _, _, _ => rfl
  | [], b :: _, _, _, h => absurd ((h b).2 (.head _)) List.not_mem_nil
  | a :: _, [], _, _, h => absurd ((h a).1 (.head _)) List.not_mem_nil
  | a :: as, b :: bs, h₁, h₂, h => by
    have ⟨ha, has⟩ := List.pairwise_cons.1 h₁
    have ⟨hb, hbs⟩ := List.pairwise_cons.1 h₂
    have hab : a = b := by
      rcases List.mem_cons.1 ((h a).1 (.head _)) with e | m
      · exact e
      · rcases List.mem_cons.1 ((h b).2 (.head _)) with e | m'
        · exact e.symm
        · exact absurd (Std.lt_trans (ha b m') (hb a m)) Std.lt_irrefl
    subst hab
    refine congrArg (a :: ·) (eq_of_mem_iff has hbs fun x => ?_)
    constructor
    · intro m
      rcases List.mem_cons.1 ((h x).1 (.tail _ m)) with e | m'
      · exact absurd (e ▸ ha x m) Std.lt_irrefl
      · exact m'
    · intro m
      rcases List.mem_cons.1 ((h x).2 (.tail _ m)) with e | m'
      · exact absurd (e ▸ hb x m) Std.lt_irrefl
      · exact m'

theorem ext_iff_mem {s t : SortedSet α} : s = t ↔ ∀ x, x ∈ s ↔ x ∈ t :=
  ⟨fun h _ => h ▸ .rfl, fun h => toList_injective (eq_of_mem_iff s.ascending t.ascending h)⟩

variable [DecidableLT α] [DecidableEq α]

theorem pairwise_insertList {x : α} {l : List α} (h : l.Pairwise (· < ·)) :
    (insertList x l).Pairwise (· < ·) := by
  induction l with
  | nil => simp [insertList]
  | cons y ys ih =>
    have ⟨hy, hys⟩ := List.pairwise_cons.1 h
    rw [insertList]
    split
    · next hlt => exact .cons (fun z hz => (List.mem_cons.1 hz).elim (· ▸ hlt)
        fun m => Std.lt_trans hlt (hy z m)) h
    · next hlt =>
      split
      · exact h
      · next hne =>
        refine .cons (fun z hz => (mem_insertList.1 hz).elim (fun e => ?_) (hy z)) (ih hys)
        rcases Std.lt_trichotomy x y with h' | h' | h'
        · exact absurd h' hlt
        · exact absurd h' hne
        · exact e ▸ h'

def insert (x : α) (s : SortedSet α) : SortedSet α :=
  ⟨insertList x s.toList, pairwise_insertList s.ascending⟩

@[simp] theorem mem_insert {x z : α} {s : SortedSet α} : z ∈ s.insert x ↔ z = x ∨ z ∈ s :=
  mem_insertList

/-- The set of the elements of `l`, in whatever order and however often they stand in it. -/
def ofList (l : List α) : SortedSet α := l.foldr insert ∅

@[simp] theorem mem_ofList {l : List α} {x : α} : x ∈ ofList l ↔ x ∈ l := by
  induction l with
  | nil => simp [ofList]
  | cons y ys ih => rw [ofList, List.foldr_cons, mem_insert, List.mem_cons]; exact or_congr_right ih

/-- Two lists make one set exactly if they have the same elements. -/
theorem ofList_eq_iff {l l' : List α} : ofList l = ofList l' ↔ ∀ x, x ∈ l ↔ x ∈ l' := by
  simp only [ext_iff_mem, mem_ofList]

@[simp] theorem ofList_toList (s : SortedSet α) : ofList s.toList = s :=
  ext_iff_mem.2 fun _ => mem_ofList

end SortedSet

end AutomatonGrammar
