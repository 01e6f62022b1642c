import AutomatonGrammar.Json.Skip
import AutomatonGrammar.Proofs.Json.Literal
import AutomatonGrammar.Proofs.Json.Numeral

/-!
# Values that are passed over

A goal calls for a text: a value, or what is left between two brackets (`Goal.Text`). A step meets a part
of its goal and leaves goals for the rest of it, so what a run passes over are texts for all goals
(`meets_of_skipGoals`). Conversely every text of a value is passed over, whatever follows it that no
number goes on with (`skipValue_spells`).

    skipValue text = .ok rest → ∃ b v t, Blanks b ∧ v.Spells t ∧ text = b ++ (t ++ rest)
                                                                       (exists_spells_of_skipValue)
-/

namespace AutomatonGrammar.Json

theorem skipWord_eq_ok_iff {word text rest : List Char} :
    skipWord word text = .ok rest ↔ text = word ++ rest := by
  constructor
  · intro h
    fun_induction skipWord word text with
    | case1 => cases h; rfl
    | case2 => cases h
    | case3 w word rest' ih => rw [ih h]; rfl
    | case4 => cases h
  · rintro rfl
    induction word with
    | nil => rfl
    | cons w word ih => simpa [skipWord] using ih

/-! ## What goals call for -/

/-- A value, or a member with its key. -/
def Bracket.Item : Bracket → List Char → Prop
  | .list, t => ∃ v : Value, v.Spells t
  | .object, t => ∃ m, Entry Value.Spells m t

/-- What is left between brackets, with the closing one. -/
def Bracket.Inside : Bracket → Bool → List Char → Prop
  | .list, isFirst, t => ∃ vs, Between ']' Value.Spells isFirst vs t
  | .object, isFirst, t => ∃ ms, Between '\x7d' (Entry Value.Spells) isFirst ms t

/-- A text that meets a goal. -/
def Goal.Text : Goal → List Char → Prop
  | .value, t => ∃ b v u, Blanks b ∧ Value.Spells v u ∧ t = b ++ u
  | .first bracket, t => bracket.Inside true t
  | .next bracket, t => bracket.Inside false t

/-- Texts that meet the goals stand one after another in front of `rest`. -/
inductive Meets : List Goal → List Char → List Char → Prop
  | nil {rest : List Char} : Meets [] rest rest
  | cons {goal : Goal} {goals : List Goal} {t text rest : List Char} (ht : goal.Text t)
      (h : Meets goals text rest) : Meets (goal :: goals) (t ++ text) rest

theorem Bracket.inside_closed (bracket : Bracket) (isFirst : Bool) {b : List Char} (hb : Blanks b) :
    bracket.Inside isFirst (b ++ [bracket.closing]) := by
  cases bracket with
  | list => exact ⟨[], .closed hb⟩
  | object => exact ⟨[], .closed hb⟩

theorem Bracket.inside_item {bracket : Bracket} {isFirst : Bool} {p t u : List Char}
    (hp : Lead isFirst p) (ht : bracket.Item t) (hu : bracket.Inside false u) :
    bracket.Inside isFirst (p ++ (t ++ u)) := by
  cases bracket with
  | list =>
    obtain ⟨v, hv⟩ := ht
    obtain ⟨vs, hvs⟩ := hu
    exact ⟨v :: vs, .item hp hv hvs⟩
  | object =>
    obtain ⟨m, hm⟩ := ht
    obtain ⟨ms, hms⟩ := hu
    exact ⟨m :: ms, .item hp hm hms⟩

/-! ## What is passed over is well-formed -/

/-- A value in front of what the other goals ask for meets one goal more. -/
theorem Meets.value {goals : List Goal} {b t text rest : List Char} {v : Value} (hb : Blanks b)
    (hv : v.Spells t) (h : Meets goals text rest) :
    Meets (.value :: goals) (b ++ (t ++ text)) rest := by
  rw [← List.append_assoc]
  exact .cons ⟨b, v, t, hb, hv, rfl⟩ h

theorem meets_of_stepValue {goals more : List Goal} {text mid rest : List Char}
    (h : stepValue text = .ok (more, mid)) (hm : Meets (more ++ goals) mid rest) :
    Meets (.value :: goals) text rest := by
  unfold stepValue at h
  split at h
  · cases h
  · next c r hr =>
    obtain ⟨b, hb, rfl, -⟩ := skipBlank_eq_cons_iff.1 hr
    split at h
    · next hc =>
      cases h
      obtain _ | ⟨⟨vs, hvs⟩, hm⟩ := hm
      exact hc ▸ .value hb (.list hvs) hm
    split at h
    · next hc =>
      cases h
      obtain _ | ⟨⟨ms, hms⟩, hm⟩ := hm
      exact hc ▸ .value hb (.object hms) hm
    split at h
    · next hc =>
      obtain ⟨hs, rfl⟩ := Result.skipped_eq_ok.1 h
      obtain ⟨t, ht, rfl⟩ := skipString_eq_ok_iff.1 hs
      have hv := Meets.value hb (.string ht) hm
      rw [List.cons_append, List.append_assoc] at hv
      exact hc ▸ hv
    split at h
    · next hc =>
      obtain ⟨hs, rfl⟩ := Result.skipped_eq_ok.1 h
      rw [skipWord_eq_ok_iff.1 hs, hc]
      exact .value hb .null hm
    split at h
    · next hc =>
      obtain ⟨hs, rfl⟩ := Result.skipped_eq_ok.1 h
      rw [skipWord_eq_ok_iff.1 hs, hc]
      exact .value hb .isTrue hm
    split at h
    · next hc =>
      obtain ⟨hs, rfl⟩ := Result.skipped_eq_ok.1 h
      rw [skipWord_eq_ok_iff.1 hs, hc]
      exact .value hb .isFalse hm
    split at h
    · obtain ⟨n, hn, rfl⟩ := Result.map_eq_ok.1 h
      obtain ⟨t, ht, hrest⟩ := number_of_readNumeral hn
      rw [hrest]
      exact .value hb (.number ht) hm
    · cases h

theorem stepKey_eq_ok_iff {text rest : List Char} {more : List Goal} :
    stepKey text = .ok (more, rest) ↔ more = [.value, .next .object] ∧
      ∃ b key b', Blanks b ∧ Literal key ∧ Blanks b' ∧
        text = b ++ '"' :: (key ++ '"' :: (b' ++ ':' :: rest)) := by
  unfold stepKey
  constructor
  · intro h
    split at h
    · cases h
    · next c r hr =>
      obtain ⟨b, hb, rfl, -⟩ := skipBlank_eq_cons_iff.1 hr
      split at h
      · next hc =>
        split at h
        · cases h
        · next hs =>
          obtain ⟨key, hkey, rfl⟩ := skipString_eq_ok_iff.1 hs
          obtain ⟨hcolon, rfl⟩ := Result.skipped_eq_ok.1 h
          obtain ⟨b', hb', rfl⟩ := skipColon_eq_ok_iff.1 hcolon
          exact ⟨rfl, b, key, b', hb, hkey, hb', by rw [hc]⟩
      · cases h
  · rintro ⟨rfl, b, key, b', hb, hkey, hb', rfl⟩
    rw [skipBlank_append_cons hb rfl]
    simp only [↓reduceIte, skipString_eq_ok_iff.2 ⟨key, hkey, rfl⟩,
      skipColon_eq_ok_iff.2 ⟨b', hb', rfl⟩, Result.skipped]

/-- The step that starts an item leaves the item and all that follows it between the brackets. -/
theorem exists_item_of_stepItem {bracket : Bracket} {goals more : List Goal}
    {text mid rest : List Char} (h : stepItem bracket text = .ok (more, mid))
    (hm : Meets (more ++ goals) mid rest) : ∃ b t u text', Blanks b ∧ bracket.Item t ∧
      bracket.Inside false u ∧ text = b ++ (t ++ (u ++ text')) ∧ Meets goals text' rest := by
  cases bracket with
  | list =>
    obtain ⟨more, hs, rfl⟩ := Result.map_eq_ok.1 h
    rw [List.append_assoc] at hm
    obtain _ | ⟨⟨b, v, t, hb, hv, rfl⟩, hm⟩ := meets_of_stepValue hs hm
    obtain _ | ⟨hu, hm⟩ := hm
    exact ⟨b, t, _, _, hb, ⟨v, hv⟩, hu, by simp, hm⟩
  | object =>
    obtain ⟨rfl, b, key, b', hb, hkey, hb', rfl⟩ := stepKey_eq_ok_iff.1 h
    obtain _ | ⟨⟨b'', v, t, hb'', hv, rfl⟩, hm⟩ := hm
    obtain _ | ⟨hu, hm⟩ := hm
    exact ⟨b, _, _, _, hb, ⟨(key, v), .mk hkey hb' hb'' hv⟩, hu, by simp, hm⟩

/-- One step: what the goals that it leaves ask for, with what it took, is what the goals asked for. -/
theorem meets_of_step {goal : Goal} {goals more : List Goal} {text mid rest : List Char}
    (h : step goal text = .ok (more, mid)) (hm : Meets (more ++ goals) mid rest) :
    Meets (goal :: goals) text rest := by
  cases goal with
  | value => exact meets_of_stepValue h hm
  | first bracket =>
    simp only [step] at h
    split at h
    · cases h
    · next c r hr =>
      obtain ⟨b, hb, rfl, -⟩ := skipBlank_eq_cons_iff.1 hr
      split at h
      · next hc =>
        cases h
        have hv : Meets (.first bracket :: goals) _ rest := .cons (bracket.inside_closed true hb) hm
        rw [List.append_assoc] at hv
        exact hc ▸ hv
      · obtain ⟨b', t, u, text', hb', ht, hu, htext, hm⟩ := exists_item_of_stepItem h hm
        have hv : Meets (.first bracket :: goals) _ rest :=
          .cons (Bracket.inside_item (.first (hb.append hb')) ht hu) hm
        rw [htext]
        simpa using hv
  | next bracket =>
    simp only [step] at h
    split at h
    · cases h
    · next c r hr =>
      obtain ⟨b, hb, rfl, -⟩ := skipBlank_eq_cons_iff.1 hr
      split at h
      · next hc =>
        cases h
        have hv : Meets (.next bracket :: goals) _ rest := .cons (bracket.inside_closed false hb) hm
        rw [List.append_assoc] at hv
        exact hc ▸ hv
      split at h
      · next hc =>
        obtain ⟨b', t, u, text', hb', ht, hu, rfl, hm⟩ := exists_item_of_stepItem h hm
        have hv : Meets (.next bracket :: goals) _ rest :=
          .cons (Bracket.inside_item (.next hb hb') ht hu) hm
        rw [hc]
        simpa using hv
      · cases h

/-- The run: a text that is passed over meets the goals. The induction follows the steps. -/
theorem meets_of_skipGoals {goals : List Goal} {text rest : List Char}
    (h : skipGoals goals text = .ok rest) : Meets goals text rest := by
  fun_induction skipGoals goals text with
  | case1 =>
    cases h
    exact .nil
  | case2 => cases h
  | case3 goal goals text more mid hs _ ih => exact meets_of_step hs (ih h)

theorem exists_spells_of_skipValue {text rest : List Char} (h : skipValue text = .ok rest) :
    ∃ b v t, Blanks b ∧ Value.Spells v t ∧ text = b ++ (t ++ rest) := by
  obtain _ | ⟨⟨b, v, t, hb, hv, rfl⟩, hm⟩ := meets_of_skipGoals h
  cases hm
  exact ⟨b, v, t, hb, hv, by simp⟩

/-! ## What is well-formed is passed over -/

theorem skipGoals_of_step {goal : Goal} {goals more : List Goal} {text rest : List Char}
    (h : step goal text = .ok (more, rest)) :
    skipGoals (goal :: goals) text = skipGoals (more ++ goals) rest := by
  rw [skipGoals]
  split
  · next he =>
    rw [h] at he
    cases he
  · next he =>
    rw [h] at he
    cases he
    rfl

theorem skipGoals_of_step_error {goal : Goal} (goals : List Goal) {text : List Char} {e : Stop}
    (h : step goal text = .error e) : skipGoals (goal :: goals) text = .error e := by
  rw [skipGoals]
  split
  · next he =>
    rw [h] at he
    cases he
    rfl
  · next he =>
    rw [h] at he
    cases he

/-- A goal that starts an item of a list asks for a value, and then for what follows it. -/
theorem skipGoals_stepItem_list {goal : Goal} {text item : List Char}
    (h : step goal text = stepItem .list item) (goals : List Goal) :
    skipGoals (goal :: goals) text = skipGoals (.value :: .next .list :: goals) item := by
  cases hs : step .value item with
  | error e =>
    have hg : step goal text = .error e := by
      rw [h]
      exact congrArg (Result.map _) hs
    rw [skipGoals_of_step_error goals hg, skipGoals_of_step_error _ hs]
  | ok r =>
    obtain ⟨more, rest⟩ := r
    have hg : step goal text = .ok (more ++ [.next .list], rest) := by
      rw [h]
      exact congrArg (Result.map _) hs
    rw [skipGoals_of_step hg, skipGoals_of_step hs, List.append_assoc]
    rfl

/-- A text that is passed over by the goal of a value, with blanks in front of it. -/
def Passed (t : List Char) : Prop :=
  ∀ b goals rest, Blanks b → Ends rest →
    skipGoals (.value :: goals) (b ++ (t ++ rest)) = skipGoals goals rest

/-- The goal of what is left between brackets. -/
def insideGoal (bracket : Bracket) (isFirst : Bool) : Goal :=
  if isFirst then .first bracket else .next bracket

theorem step_closed (bracket : Bracket) (isFirst : Bool) {b : List Char} (hb : Blanks b)
    (rest : List Char) :
    step (insideGoal bracket isFirst) (b ++ bracket.closing :: rest) = .ok ([], rest) := by
  have hblank : isBlank bracket.closing = false := by cases bracket <;> rfl
  cases isFirst <;> exact by simp [insideGoal, step, skipBlank_append_cons hb hblank]

theorem step_item (bracket : Bracket) {isFirst : Bool} {p t : List Char} (hp : Lead isFirst p)
    (ht : Starts t) (rest : List Char) :
    ∃ b, Blanks b ∧
      step (insideGoal bracket isFirst) (p ++ (t ++ rest)) = stepItem bracket (b ++ (t ++ rest)) := by
  cases hp with
  | first hb =>
    obtain ⟨c, u, rfl, hc⟩ := ht
    have hne : c ≠ bracket.closing := by
      rintro rfl
      cases bracket <;> exact absurd hc (by decide)
    refine ⟨[], .nil, ?_⟩
    simp [insideGoal, step, skipBlank_append_cons hb (isBlank_of_not_mem_betweenValues hc), hne]
  | @next b b' hb hb' =>
    have hne : ',' ≠ bracket.closing := by cases bracket <;> decide
    refine ⟨b', hb', ?_⟩
    simp [insideGoal, step, skipBlank_append_cons hb (show isBlank ',' = false from rfl), hne]

/-- The items of a list are passed over one by one, if each of them is. -/
theorem skipGoals_list {isFirst : Bool} {vs : List Value} {t : List Char}
    (h : Between ']' (fun v u => Value.Spells v u ∧ Passed u) isFirst vs t) (goals : List Goal)
    (rest : List Char) :
    skipGoals (insideGoal .list isFirst :: goals) (t ++ rest) = skipGoals goals rest := by
  induction h with
  | closed hb =>
    rw [List.append_assoc]
    exact skipGoals_of_step (step_closed .list _ hb rest)
  | @item isFirst v vs p t u hp hx h ih =>
    obtain ⟨b, hb, hstep⟩ := step_item .list hp hx.1.starts (u ++ rest)
    rw [List.append_assoc, List.append_assoc]
    calc skipGoals (insideGoal .list isFirst :: goals) (p ++ (t ++ (u ++ rest)))
        = skipGoals (.value :: .next .list :: goals) (b ++ (t ++ (u ++ rest))) :=
          skipGoals_stepItem_list hstep goals
      _ = skipGoals (.next .list :: goals) (u ++ rest) :=
          hx.2 b _ _ hb (h.ends (by decide) rest)
      _ = skipGoals goals rest := ih

theorem skipGoals_entry {goal : Goal} {text b t rest : List Char} {m : List Char × Value}
    (h : step goal text = stepItem .object (b ++ (t ++ rest))) (hb : Blanks b)
    (hm : Entry (fun v u => Value.Spells v u ∧ Passed u) m t) (hr : Ends rest)
    (goals : List Goal) :
    skipGoals (goal :: goals) text = skipGoals (.next .object :: goals) rest := by
  cases hm with
  | @mk key b₁ b₂ t x hk hb₁ hb₂ hx =>
    have hs : step goal text = .ok ([.value, .next .object], b₂ ++ (t ++ rest)) := by
      rw [h]
      exact stepKey_eq_ok_iff.2 ⟨rfl, b, key, b₁, hb, hk, hb₁, by simp⟩
    rw [skipGoals_of_step hs]
    exact hx.2 b₂ _ _ hb₂ hr

/-- The members of an object are passed over one by one, if each of their values is. -/
theorem skipGoals_object {isFirst : Bool} {ms : List (List Char × Value)} {t : List Char}
    (h : Between '\x7d' (Entry fun v u => Value.Spells v u ∧ Passed u) isFirst ms t)
    (goals : List Goal) (rest : List Char) :
    skipGoals (insideGoal .object isFirst :: goals) (t ++ rest) = skipGoals goals rest := by
  induction h with
  | closed hb =>
    rw [List.append_assoc]
    exact skipGoals_of_step (step_closed .object _ hb rest)
  | @item isFirst m ms p t u hp hx h ih =>
    obtain ⟨b, hb, hstep⟩ := step_item .object hp hx.starts (u ++ rest)
    rw [List.append_assoc, List.append_assoc]
    exact (skipGoals_entry hstep hb hx (h.ends (by decide) rest) goals).trans ih

theorem passed_of_step {t : List Char} (h : ∀ b rest, Blanks b → Ends rest →
    stepValue (b ++ (t ++ rest)) = .ok ([], rest)) : Passed t := by
  intro b goals rest hb hr
  have hs : step .value (b ++ (t ++ rest)) = .ok ([], rest) := h b rest hb hr
  exact skipGoals_of_step hs

theorem Number.passed {t : List Char} (h : Number t) : Passed t := by
  refine passed_of_step fun b rest hb hr => ?_
  obtain ⟨n, hn⟩ := exists_readNumeral .invalidNumber h hr
  obtain ⟨c, u, rfl, hc⟩ := h.exists_head
  have hstarts : startsNumeral c = true := by simpa [startsNumeral] using hc
  have hother : ∀ d ∈ ['[', '\x7b', '"', 'n', 't', 'f', ' ', '\n', '\t', '\r'],
      startsNumeral d = false := by
    simp [startsNumeral]
  have hne : ∀ d ∈ ['[', '\x7b', '"', 'n', 't', 'f', ' ', '\n', '\t', '\r'], c ≠ d := by
    rintro d hd rfl
    rw [hother c hd] at hstarts
    cases hstarts
  simp only [List.mem_cons, List.not_mem_nil, or_false, forall_eq_or_imp, forall_eq] at hne
  have hblank : isBlank c = false := by simp [isBlank, hne]
  rw [List.cons_append] at hn ⊢
  rw [stepValue, skipBlank_append_cons hb hblank]
  simp [hne, hstarts, hn, Result.map]

/-- Every value is passed over. The induction is on the value. -/
theorem Value.Spells.passed {v : Value} {t : List Char} (h : v.Spells t) : Passed t := by
  refine h.induct (P := fun _ t => Passed t) ?_ ?_ ?_ ?_ ?_ ?_ ?_
  · refine passed_of_step fun b rest hb _ => ?_
    rw [List.cons_append, stepValue, skipBlank_append_cons hb rfl]
    rfl
  · refine passed_of_step fun b rest hb _ => ?_
    rw [List.cons_append, stepValue, skipBlank_append_cons hb rfl]
    rfl
  · refine passed_of_step fun b rest hb _ => ?_
    rw [List.cons_append, stepValue, skipBlank_append_cons hb rfl]
    rfl
  · exact fun t ht => ht.passed
  · intro t ht
    refine passed_of_step fun b rest hb _ => ?_
    rw [List.cons_append, stepValue, skipBlank_append_cons hb rfl]
    simp [skipString_eq_ok_iff.2 ⟨t, ht, rfl⟩, Result.skipped]
  · intro vs t h b goals rest hb hr
    have hs : step .value (b ++ ('[' :: t ++ rest)) = .ok ([.first .list], t ++ rest) := by
      rw [step, List.cons_append, stepValue, skipBlank_append_cons hb rfl]
      rfl
    rw [skipGoals_of_step hs]
    exact skipGoals_list h goals rest
  · intro ms t h b goals rest hb hr
    have hs : step .value (b ++ ('\x7b' :: t ++ rest)) = .ok ([.first .object], t ++ rest) := by
      rw [step, List.cons_append, stepValue, skipBlank_append_cons hb rfl]
      rfl
    rw [skipGoals_of_step hs]
    exact skipGoals_object h goals rest

theorem skipValue_spells {v : Value} {b t rest : List Char} (hb : Blanks b) (h : v.Spells t)
    (hr : Ends rest) : skipValue (b ++ (t ++ rest)) = .ok rest := by
  rw [skipValue, h.passed b [] rest hb hr, skipGoals]

end AutomatonGrammar.Json
