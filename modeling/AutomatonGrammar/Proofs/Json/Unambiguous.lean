import AutomatonGrammar.Proofs.Json.Skip

/-!
# JSON texts are unambiguous

A text is a text of one value at most (`Value.Document.unique`). Where a value ends is settled by the
reader that passes over it: it passes over both readings of a text and leaves one rest
(`Value.Spells.extent`). With the places of the items known, the items are compared one by one.
-/

namespace AutomatonGrammar.Json

/-! ## Where the parts of a text end -/

theorem Literal.extent {t t' r r' : List Char} (h : Literal t) (h' : Literal t')
    (he : t ++ '"' :: r = t' ++ '"' :: r') : t = t' ∧ r = r' := by
  have hs : skipString (t ++ '"' :: r) = .ok r := skipString_eq_ok_iff.2 ⟨t, h, rfl⟩
  have hs' : skipString (t' ++ '"' :: r') = .ok r' := skipString_eq_ok_iff.2 ⟨t', h', rfl⟩
  rw [he, hs'] at hs
  cases hs
  exact ⟨List.append_cancel_right he, rfl⟩

theorem Starts.skipBlank {b t : List Char} (h : Starts t) (hb : Blanks b) :
    skipBlank (b ++ t) = t := by
  obtain ⟨c, u, rfl, hc⟩ := h
  exact skipBlank_append_cons hb (isBlank_of_not_mem_betweenValues hc) u

theorem Starts.extent {b b' t t' : List Char} (h : Starts t) (h' : Starts t') (hb : Blanks b)
    (hb' : Blanks b') (he : b ++ t = b' ++ t') : t = t' := by
  rw [← h.skipBlank hb, ← h'.skipBlank hb', he]

theorem Value.Spells.extent {v v' : Value} {b b' t t' r r' : List Char} (hb : Blanks b)
    (hb' : Blanks b') (h : v.Spells t) (h' : v'.Spells t') (hr : Ends r) (hr' : Ends r')
    (he : b ++ (t ++ r) = b' ++ (t' ++ r')) : t = t' ∧ r = r' := by
  have hs := skipValue_spells hb h hr
  rw [he, skipValue_spells hb' h' hr'] at hs
  cases hs
  have ht : t ++ r = t' ++ r := (h.starts.append r).extent (h'.starts.append r) hb hb' he
  exact ⟨List.append_cancel_right ht, rfl⟩

theorem Lead.extent {isFirst : Bool} {p p' t t' : List Char} (h : Lead isFirst p)
    (h' : Lead isFirst p') (ht : Starts t) (ht' : Starts t') (he : p ++ t = p' ++ t') : t = t' := by
  cases h with
  | first hb =>
    obtain ⟨hb'⟩ := h'
    exact ht.extent ht' hb hb' he
  | @next b₁ b₂ hb₁ hb₂ =>
    obtain _ | @⟨b₁', b₂', hb₁', hb₂'⟩ := h'
    have hskip : skipBlank (b₁ ++ ',' :: (b₂ ++ t)) = skipBlank (b₁' ++ ',' :: (b₂' ++ t')) := by
      simpa using congrArg skipBlank he
    rw [skipBlank_append_cons hb₁ rfl, skipBlank_append_cons hb₁' rfl] at hskip
    exact ht.extent ht' hb₂ hb₂' (List.cons.inj hskip).2

/-- In front of an item there is no closing bracket. -/
theorem Lead.ne_closed {isFirst : Bool} {p b t : List Char} (h : Lead isFirst p) (ht : Starts t)
    (bracket : Bracket) (hb : Blanks b) : p ++ t ≠ b ++ [bracket.closing] := by
  intro he
  have hclosing : isBlank bracket.closing = false ∧ bracket.closing ∈ betweenValues ∧
      ',' ≠ bracket.closing := by
    cases bracket <;> decide
  have hskip : skipBlank (p ++ t) = [bracket.closing] := by
    rw [he, skipBlank_append_cons hb hclosing.1]
  cases h with
  | first hp =>
    obtain ⟨c, u, rfl, hc⟩ := ht
    rw [skipBlank_append_cons hp (isBlank_of_not_mem_betweenValues hc)] at hskip
    exact hc ((List.cons.inj hskip).1 ▸ hclosing.2.1)
  | next hp _ =>
    rw [List.append_assoc, List.cons_append, skipBlank_append_cons hp rfl] at hskip
    exact hclosing.2.2 (List.cons.inj hskip).1

/-! ## One value for each text -/

/-- Items are told from a text in which each can be told from what follows it. -/
theorem Between.unique {α : Type} (bracket : Bracket) {Item Item' : α → List Char → Prop}
    (hstarts : ∀ {x t}, Item x t → Starts t) (hstarts' : ∀ {x t}, Item' x t → Starts t)
    (hitem : ∀ {x x' t t' r r'}, Item x t → Item' x' t' → Ends r → Ends r' → t ++ r = t' ++ r' →
      x = x' ∧ r = r')
    {isFirst : Bool} {xs xs' : List α} {t : List Char}
    (h : Between bracket.closing Item isFirst xs t)
    (h' : Between bracket.closing Item' isFirst xs' t) : xs = xs' := by
  have hclosing : bracket.closing ∈ betweenValues := by cases bracket <;> decide
  induction h generalizing xs' with
  | closed hb =>
    generalize he : _ ++ [bracket.closing] = t at h'
    cases h' with
    | closed => rfl
    | item hp' hx' h' =>
      exact absurd he.symm (hp'.ne_closed ((hstarts' hx').append _) bracket hb)
  | @item isFirst x xs p t u hp hx h ih =>
    generalize he : p ++ (t ++ u) = text at h'
    cases h' with
    | closed hb =>
      exact absurd he (hp.ne_closed ((hstarts hx).append _) bracket hb)
    | @item _ x' xs' p' t' u' hp' hx' h' =>
      have htext : t ++ u = t' ++ u' :=
        hp.extent hp' ((hstarts hx).append u) ((hstarts' hx').append u') he
      have hu : Ends u := by simpa using h.ends hclosing []
      have hu' : Ends u' := by simpa using h'.ends hclosing []
      obtain ⟨rfl, rfl⟩ := hitem hx hx' hu hu' htext
      rw [ih h']

/-- A value and a text of it that is a text of no other value. -/
def Value.Only (v : Value) (t : List Char) : Prop := v.Spells t ∧ ∀ v' : Value, v'.Spells t → v = v'

theorem Value.Only.unique {v v' : Value} {b b' t t' r r' : List Char} (hb : Blanks b)
    (hb' : Blanks b') (h : v.Only t) (h' : v'.Spells t') (hr : Ends r) (hr' : Ends r')
    (he : b ++ (t ++ r) = b' ++ (t' ++ r')) : v = v' ∧ r = r' := by
  obtain ⟨rfl, rfl⟩ := h.1.extent hb hb' h' hr hr' he
  exact ⟨h.2 v' h', rfl⟩

theorem Entry.unique {m m' : List Char × Value} {t t' r r' : List Char} (h : Entry Value.Only m t)
    (h' : Entry Value.Spells m' t') (hr : Ends r) (hr' : Ends r') (he : t ++ r = t' ++ r') :
    m = m' ∧ r = r' := by
  obtain @⟨key, b₁, b₂, u, v, hk, hb₁, hb₂, hv⟩ := h
  obtain @⟨key', b₁', b₂', u', v', hk', hb₁', hb₂', hv'⟩ := h'
  simp only [List.cons_append, List.append_assoc, List.cons.injEq, true_and] at he
  obtain ⟨rfl, hcolon⟩ := hk.extent hk' he
  have hskip := congrArg skipBlank hcolon
  rw [skipBlank_append_cons hb₁ rfl, skipBlank_append_cons hb₁' rfl] at hskip
  obtain ⟨rfl, rfl⟩ := hv.unique hb₂ hb₂' hv' hr hr' (List.cons.inj hskip).2
  exact ⟨rfl, rfl⟩

/-- No number starts as another value does. -/
theorem Number.head_not_mem {c : Char} {t : List Char} (h : Number (c :: t)) :
    c ∉ ['n', 't', 'f', '"', '[', '\x7b'] := by
  intro hc
  obtain ⟨d, u, hd, hstart⟩ := h.exists_head
  cases hd
  have hother : ∀ d ∈ ['n', 't', 'f', '"', '[', '\x7b'], ¬(d = '-' ∨ d.isDigit = true) := by
    simp
  exact hother c hc hstart

theorem Value.Spells.unique {v v' : Value} {t : List Char} (h : v.Spells t) (h' : v'.Spells t) :
    v = v' := by
  refine h.induct (P := fun v t => ∀ v' : Value, v'.Spells t → v = v') ?_ ?_ ?_ ?_ ?_ ?_ ?_ v' h'
  · intro v' h'
    cases h' with
    | null => rfl
    | number hn => exact absurd (by decide) hn.head_not_mem
  · intro v' h'
    cases h' with
    | isTrue => rfl
    | number hn => exact absurd (by decide) hn.head_not_mem
  · intro v' h'
    cases h' with
    | isFalse => rfl
    | number hn => exact absurd (by decide) hn.head_not_mem
  · intro t hn v' h'
    cases h' with
    | number => rfl
    | _ => exact absurd (by decide) hn.head_not_mem
  · intro t ht v' h'
    generalize he : '"' :: (t ++ ['"']) = text at h'
    cases h' with
    | string ht' =>
      rw [(ht.extent ht' (List.cons.inj he).2).1]
    | number hn =>
      subst he
      exact absurd (by decide) hn.head_not_mem
    | _ => cases he
  · intro vs t hvs v' h'
    cases h' with
    | list hvs' =>
      exact congrArg Value.list (Between.unique .list (fun h => h.1.starts)
        Value.Spells.starts (Value.Only.unique .nil .nil) hvs hvs')
    | number hn => exact absurd (by decide) hn.head_not_mem
  · intro ms t hms v' h'
    cases h' with
    | object hms' =>
      exact congrArg Value.object (Between.unique .object Entry.starts Entry.starts
        Entry.unique hms hms')
    | number hn => exact absurd (by decide) hn.head_not_mem

theorem Value.Document.unique {v v' : Value} {text : List Char} (h : v.Document text)
    (h' : v'.Document text) : v = v' := by
  obtain ⟨b, t, r, hb, hv, hr, rfl⟩ := h
  obtain ⟨b', t', r', hb', hv', hr', he⟩ := h'
  have hends : ∀ {r}, Blanks r → Ends r := by
    intro r hr
    have hnil : Ends [] := by
      intro c u hc
      cases hc
    simpa using hr.ends hnil
  obtain ⟨rfl, -⟩ := hv.extent hb hb' hv' (hends hr) (hends hr') he
  exact hv.unique hv'

end AutomatonGrammar.Json
