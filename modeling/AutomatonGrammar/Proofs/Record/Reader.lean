import AutomatonGrammar.Proofs.Record.Draft

/-!
# Which records are read

A draft is completed by members (`Draft.Completes`) if every field is known to it and has no member, or
is not known and has one. One member is read just if it takes the draft to one that the other members
complete, so an object is read just if its members complete the empty draft; lists are read field by
field.

    readRecord text = .ok (a, rest) ↔ ∃ b v t l,
      Blanks b ∧ Value.Spells v t ∧ Lists v l ∧ l.Gives a ∧ text = b ++ (t ++ rest)
                                                                        (readRecord_eq_ok_iff)
-/

namespace AutomatonGrammar.Record

open Json

/-! ## Objects -/

theorem Field.name_of_ofName? {name : String} {f : Field} (h : Field.ofName? name = some f) :
    f.name = name := by
  have hf := List.find?_some h
  exact of_decide_eq_true hf

theorem Field.name_injective {f g : Field} (h : f.name = g.name) : f = g := by
  have hf := ofName?_name f
  rw [h, ofName?_name] at hf
  exact (Option.some.inj hf).symm

/-- The field is known as it is in `a` and has no member, or is not known and has one that shows it. -/
def Draft.Settles (d : Draft) (members : List (String × Value)) (a : Automaton) (f : Field) : Prop :=
  (d.Knows a f ∧ membersOf f members = []) ∨
    (d.has f = false ∧ ∃ v, membersOf f members = [(f.name, v)] ∧ Shows a f v)

def Draft.Completes (d : Draft) (members : List (String × Value)) (a : Automaton) : Prop :=
  ∀ f, d.Settles members a f

section Members

variable {d : Draft} {members : List (String × Value)} {a a₀ : Automaton} {f g : Field} {v : Value}

theorem membersOf_cons_self (f : Field) (v : Value) (members : List (String × Value)) :
    membersOf f ((f.name, v) :: members) = (f.name, v) :: membersOf f members := by
  simp [membersOf]

theorem membersOf_cons_of_ne {name : String} (h : name ≠ f.name) (v : Value)
    (members : List (String × Value)) : membersOf f ((name, v) :: members) = membersOf f members := by
  simp [membersOf, h]

theorem Draft.settles_cons_self : d.Settles ((f.name, v) :: members) a f ↔
    d.has f = false ∧ membersOf f members = [] ∧ Shows a f v := by
  rw [Draft.Settles, membersOf_cons_self]
  constructor
  · rintro (⟨-, hnil⟩ | ⟨hd, v', hone, hv⟩)
    · exact absurd hnil (List.cons_ne_nil _ _)
    · obtain ⟨hhead, hrest⟩ := List.cons.inj hone
      cases hhead
      exact ⟨hd, hrest, hv⟩
  · rintro ⟨hd, hrest, hv⟩
    exact .inr ⟨hd, v, by rw [hrest], hv⟩

theorem Draft.settles_cons_of_ne (h : g ≠ f) :
    (d.fill a₀ f).Settles members a g ↔ d.Settles ((f.name, v) :: members) a g := by
  have hname : f.name ≠ g.name := fun he => h (Field.name_injective he).symm
  rw [Draft.Settles, Draft.Settles, membersOf_cons_of_ne hname, Draft.knows_fill_of_ne h,
    Draft.has_fill, decide_eq_false h, Bool.false_or]

theorem Draft.completes_nil : d.Completes [] a ↔ d.complete = .ok a := by
  rw [Draft.complete_eq_ok_iff]
  refine forall_congr' fun f => ⟨?_, fun h => .inl ⟨h, rfl⟩⟩
  rintro (⟨h, -⟩ | ⟨-, _, hnil, -⟩)
  · exact h
  · cases hnil

theorem Draft.completes_cons_other {name : String} (h : Field.ofName? name = none) :
    d.Completes ((name, v) :: members) a ↔ d.Completes members a := by
  refine forall_congr' fun f => ?_
  have hne : name ≠ f.name := by
    rintro rfl
    rw [ofName?_name] at h
    cases h
  rw [Draft.Settles, Draft.Settles, membersOf_cons_of_ne hne]

theorem Draft.completes_cons_field : d.Completes ((f.name, v) :: members) a ↔
    d.has f = false ∧ ∃ a₀, Shows a₀ f v ∧ (d.fill a₀ f).Completes members a := by
  constructor
  · intro h
    obtain ⟨hd, hrest, hv⟩ := Draft.settles_cons_self.1 (h f)
    refine ⟨hd, a, hv, fun g => ?_⟩
    by_cases hg : g = f
    · subst hg
      exact .inl ⟨d.knows_fill a g, hrest⟩
    · exact (Draft.settles_cons_of_ne hg).2 (h g)
  · rintro ⟨hd, a₀, hv, h⟩ g
    by_cases hg : g = f
    · subst hg
      -- the value was read into some `a₀`, and what is known of it in the end is as in `a`
      obtain ⟨hknows, hrest⟩ | ⟨hhas, -⟩ := h g
      · exact Draft.settles_cons_self.2 ⟨hd, hrest, hv.of_knows hknows⟩
      · exact absurd ((d.knows_fill a₀ g).has) (by simp [hhas])
    · exact (Draft.settles_cons_of_ne hg).1 (h g)

/-- Nothing is known yet. -/
theorem Draft.completes_empty : Draft.empty.Completes members a ↔
    ∀ f, ∃ v, membersOf f members = [(f.name, v)] ∧ Shows a f v := by
  refine forall_congr' fun f => ⟨?_, fun h => .inr ⟨by cases f <;> rfl, h⟩⟩
  rintro (⟨h, -⟩ | ⟨-, h⟩)
  · have hhas := h.has
    cases f <;> cases hhas
  · exact h

/-- A member that is read leaves a draft that is completed just as the draft before it. -/
theorem completes_of_readMember {d d' : Draft} {key : String} {text rest : List Char}
    (h : readMember d key text = .ok (d', rest)) :
    ∃ b b' v t, Blanks b ∧ Blanks b' ∧ Value.Spells v t ∧ text = b ++ ':' :: (b' ++ (t ++ rest)) ∧
      ∀ members a, d'.Completes members a → d.Completes ((key, v) :: members) a := by
  unfold readMember at h
  split at h
  · next f hf =>
    obtain rfl := Field.name_of_ofName? hf
    split at h
    · cases h
    · next hd =>
      split at h
      · cases h
      · next value hc =>
        obtain ⟨b, hb, rfl⟩ := skipColon_eq_ok_iff.1 hc
        obtain ⟨b', v, t, hb', hv, ⟨a₀, ha₀, rfl⟩, rfl⟩ := (d.reads f).1 h
        refine ⟨b, b', v, t, hb, hb', hv, rfl, fun members a ha => ?_⟩
        exact Draft.completes_cons_field.2 ⟨by simpa using hd, a₀, ha₀, ha⟩
  · next hother =>
    split at h
    · cases h
    · next value hc =>
      obtain ⟨b, hb, rfl⟩ := skipColon_eq_ok_iff.1 hc
      obtain ⟨hskip, rfl⟩ := Result.skipped_eq_ok.1 h
      obtain ⟨b', v, t, hb', hv, rfl⟩ := exists_spells_of_skipValue hskip
      exact ⟨b, b', v, t, hb, hb', hv, rfl, fun _ _ => (Draft.completes_cons_other hother).2⟩

theorem exists_readMember {key : String} (h : d.Completes ((key, v) :: members) a)
    {b b' t rest : List Char} (hb : Blanks b) (hb' : Blanks b') (hv : v.Spells t)
    (hr : Ends rest) :
    ∃ d', readMember d key (b ++ ':' :: (b' ++ (t ++ rest))) = .ok (d', rest) ∧
      d'.Completes members a := by
  have hc : skipColon (b ++ ':' :: (b' ++ (t ++ rest))) = .ok (b' ++ (t ++ rest)) :=
    skipColon_eq_ok_iff.2 ⟨b, hb, rfl⟩
  cases hf : Field.ofName? key with
  | some f =>
    obtain rfl := Field.name_of_ofName? hf
    obtain ⟨hd, a₀, ha₀, h⟩ := Draft.completes_cons_field.1 h
    refine ⟨d.fill a₀ f, ?_, h⟩
    rw [readMember, hf]
    simp only [hd, Bool.false_eq_true, ↓reduceIte, hc]
    exact (d.reads f).2 ⟨b', v, t, hb', hv, ⟨a₀, ha₀, rfl⟩, rfl⟩
  | none =>
    refine ⟨d, ?_, (Draft.completes_cons_other hf).1 h⟩
    rw [readMember, hf]
    simp only [hc, skipValue_spells hb' hv hr, Result.skipped]

theorem Draft.finish_eq_ok_iff {rest rest' : List Char} :
    d.finish rest = .ok (a, rest') ↔ d.complete = .ok a ∧ rest = rest' := by
  unfold Draft.finish
  cases d.complete with
  | ok b => simp
  | error f => simp

theorem exists_between_of_readObject {d : Draft} {isFirst : Bool} {text rest : List Char}
    (h : readObject d isFirst text = .ok (a, rest)) :
    ∃ ms members t, Between '\x7d' (Entry Value.Spells) isFirst ms t ∧
      List.Forall₂ (IsEntry Eq) ms members ∧ d.Completes members a ∧ text = t ++ rest := by
  fun_induction readObject d isFirst text with
  | case1 => cases h
  | case2 d isFirst text rest' hn =>
    obtain ⟨hd, rfl⟩ := Draft.finish_eq_ok_iff.1 h
    obtain ⟨b, hb, rfl⟩ := nextItem_eq_closed_iff.1 hn
    exact ⟨[], [], _, .closed hb, .nil, Draft.completes_nil.2 hd, by simp [Bracket.closing]⟩
  | case3 => cases h
  | case4 => cases h
  | case5 d isFirst text member hn key mid hk d' rest' hm _ ih =>
    -- the members behind this one complete the draft that it leaves
    obtain ⟨p, hp, rfl⟩ := exists_lead_of_nextItem hn
    obtain ⟨k, hkey, rfl⟩ := readKey_eq_ok_iff.1 hk
    obtain ⟨b, b', v, t, hb, hb', hv, rfl, hd⟩ := completes_of_readMember hm
    obtain ⟨ms, members, u, hms, hmembers, hd', rfl⟩ := ih h
    exact ⟨(k, v) :: ms, (key, v) :: members, _, .item hp (.mk hkey.literal hb hb' hv) hms,
      .cons ⟨hkey, rfl⟩ hmembers, hd members a hd', by simp⟩

theorem readObject_between {isFirst : Bool} {ms : List (List Char × Value)} {t : List Char}
    (h : Between '\x7d' (Entry Value.Spells) isFirst ms t)
    (hms : List.Forall₂ (IsEntry Eq) ms members) (hd : d.Completes members a)
    (rest : List Char) : readObject d isFirst (t ++ rest) = .ok (a, rest) := by
  induction h generalizing d members with
  | closed hb =>
    cases hms
    rw [List.append_assoc]
    exact (readObject_closed (nextItem_eq_closed_iff.2 ⟨_, hb, rfl⟩)).trans
      (Draft.finish_eq_ok_iff.2 ⟨Draft.completes_nil.1 hd, rfl⟩)
  | @item isFirst m ms p t u hp hm h ih =>
    obtain _ | @⟨_, e, _, members, ⟨hkey, hvalue⟩, hms⟩ := hms
    have hnext := nextItem_lead .object hp (hm.starts.append (u ++ rest))
    obtain @⟨k, b, b', t, v, -, hb, hb', hv⟩ := hm
    obtain ⟨key, v'⟩ := e
    obtain rfl : v = v' := hvalue
    have hk : readKey ('"' :: (k ++ '"' :: (b ++ ':' :: (b' ++ t))) ++ (u ++ rest)) =
        .ok (key, b ++ ':' :: (b' ++ (t ++ (u ++ rest)))) :=
      readKey_eq_ok_iff.2 ⟨k, hkey, by simp⟩
    obtain ⟨d', hmember, hd'⟩ := exists_readMember hd hb hb' hv (h.ends (by decide) rest)
    rw [List.append_assoc, List.append_assoc, readObject_member hnext hk hmember]
    exact ih hms hd'

end Members

/-! ## Lists -/

theorem closeList_eq_ok_iff {text rest : List Char} :
    closeList text = .ok rest ↔ ∃ b, Blanks b ∧ text = b ++ ']' :: rest := by
  constructor
  · intro h
    unfold closeList at h
    split at h
    · cases h
    · next hr =>
      cases h
      obtain ⟨b, hb, rfl, -⟩ := skipBlank_eq_cons_iff.1 hr
      exact ⟨b, hb, rfl⟩
    · split at h <;> cases h
    · cases h
  · rintro ⟨b, hb, rfl⟩
    rw [closeList, skipBlank_append_cons hb rfl]
    rfl

theorem exists_between_of_readList {a : Automaton} {fs : List Field} {d : Draft} {count : Nat}
    {text rest : List Char} (hfs : fs.Nodup) (h : readList d count fs text = .ok (a, rest)) :
    ∃ vs t, Between ']' Value.Spells (count = 0) vs t ∧ List.Forall₂ (Shows a) fs vs ∧
      (∀ f, f ∉ fs → d.Knows a f) ∧ text = t ++ rest := by
  induction fs generalizing d count text with
  | nil =>
    unfold readList at h
    split at h
    · cases h
    · next hc =>
      obtain ⟨hd, rfl⟩ := Draft.finish_eq_ok_iff.1 h
      obtain ⟨b, hb, rfl⟩ := closeList_eq_ok_iff.1 hc
      exact ⟨[], _, .closed hb, .nil, fun f _ => Draft.complete_eq_ok_iff.1 hd f, by simp⟩
  | cons f fs ih =>
    have ⟨hf, hfs⟩ := List.nodup_cons.1 hfs
    unfold readList at h
    split at h
    · cases h
    · cases h
    · next item hn =>
      split at h
      · cases h
      · next d' mid hr =>
        obtain ⟨p, hp, rfl⟩ := exists_lead_of_nextItem hn
        obtain ⟨b, v, t, hb, hv, ⟨a₀, ha₀, rfl⟩, rfl⟩ := (d.reads f).1 hr
        obtain ⟨vs, u, hvs, hshows, hknows, rfl⟩ := ih hfs h
        -- no later value is of the field `f`, so it is still known as it has been read
        refine ⟨v :: vs, _, .item (hp.blanks hb) hv hvs, .cons (ha₀.of_knows (hknows f hf)) hshows,
          fun g hg => ?_, by simp⟩
        have ⟨hne, hg⟩ := List.ne_and_not_mem_of_not_mem_cons hg
        exact (Draft.knows_fill_of_ne hne).1 (hknows g hg)

theorem readList_between {a : Automaton} {isFirst : Bool} {vs : List Value} {t : List Char}
    (h : Between ']' Value.Spells isFirst vs t) {count : Nat} (hcount : isFirst = decide (count = 0))
    {fs : List Field} (hfs : List.Forall₂ (Shows a) fs vs) {d : Draft}
    (hd : ∀ f, f ∉ fs → d.Knows a f) (rest : List Char) :
    readList d count fs (t ++ rest) = .ok (a, rest) := by
  induction h generalizing count fs d with
  | @closed _ b hb =>
    cases hfs
    have hclose : closeList (b ++ ']' :: rest) = .ok rest := closeList_eq_ok_iff.2 ⟨b, hb, rfl⟩
    rw [List.append_assoc, List.singleton_append, readList, hclose]
    exact Draft.finish_eq_ok_iff.2 ⟨Draft.complete_eq_ok_iff.2 fun f => hd f List.not_mem_nil, rfl⟩
  | @item isFirst v vs p t u hp hv _ ih =>
    obtain _ | @⟨f, _, fs, _, hf, hfs⟩ := hfs
    have hnext := nextItem_lead .list hp (hv.starts.append (u ++ rest))
    have hread : d.read f (t ++ (u ++ rest)) = .ok (d.fill a f, u ++ rest) :=
      (d.reads f).2 ⟨[], v, t, .nil, hv, ⟨a, hf, rfl⟩, rfl⟩
    rw [hcount] at hnext
    rw [List.append_assoc, List.append_assoc, readList, hnext]
    simp only [hread]
    refine ih rfl hfs fun g hg => ?_
    by_cases hne : g = f
    · subst hne
      exact d.knows_fill a g
    · refine (Draft.knows_fill_of_ne hne).2 (hd g fun hm => ?_)
      exact (List.mem_cons.1 hm).elim hne hg

/-! ## Records -/

/-- A list of one value for each field. -/
theorem exists_vals {R : Field → Value → Prop} {vs : List Value} (h : List.Forall₂ R Field.all vs) :
    ∃ vals : Field → Value, vs = Field.all.map vals ∧ ∀ f, R f (vals f) := by
  unfold Field.all at h
  obtain _ | @⟨_, states, _, _, hs, h⟩ := h
  obtain _ | @⟨_, alphabet, _, _, hx, h⟩ := h
  obtain _ | @⟨_, transitions, _, _, ht, h⟩ := h
  obtain _ | @⟨_, start, _, _, hq, h⟩ := h
  obtain _ | @⟨_, accepting, _, _, ha, h⟩ := h
  obtain _ | _ := h
  exact ⟨Field.rec states alphabet transitions start accepting, rfl,
    fun f => by cases f <;> assumption⟩

theorem forall₂_all {R : Field → Value → Prop} {vals : Field → Value} (h : ∀ f, R f (vals f)) :
    List.Forall₂ R Field.all (Field.all.map vals) :=
  List.forall₂_map_right_iff.2 (List.forall₂_same.2 fun f _ => h f)

theorem readRecord_eq_ok_iff {a : Automaton} {text rest : List Char} :
    readRecord text = .ok (a, rest) ↔ ∃ b v t l, Blanks b ∧ Value.Spells v t ∧ Lists v l ∧
      l.Gives a ∧ text = b ++ (t ++ rest) := by
  constructor
  · intro h
    unfold readRecord at h
    split at h
    · cases h
    · next c r hr =>
      obtain ⟨b, hb, rfl, -⟩ := skipBlank_eq_cons_iff.1 hr
      split at h
      · next hc =>
        obtain ⟨ms, members, t, hms, hmembers, hd, rfl⟩ := exists_between_of_readObject h
        choose vals hone hshows using Draft.completes_empty.1 hd
        obtain ⟨l, rfl, hl⟩ := exists_listing hshows
        exact ⟨b, .object ms, _, l, hb, .object hms,
          .object hmembers fun f => ⟨vals f, hone f, hl f⟩, l.gives_automaton, by simp [hc]⟩
      split at h
      · next hc =>
        obtain ⟨vs, t, hvs, hshows, -, rfl⟩ := exists_between_of_readList (by decide) h
        obtain ⟨vals, rfl, hvals⟩ := exists_vals hshows
        obtain ⟨l, rfl, hl⟩ := exists_listing hvals
        exact ⟨b, .list _, _, l, hb, .list (by simpa using hvs), .list (forall₂_all hl),
          l.gives_automaton, by simp [hc]⟩
      · cases h
  · rintro ⟨b, v, t, l, hb, hv, hl, ha, rfl⟩
    obtain rfl := Listing.gives_iff.1 ha
    cases hl with
    | object hms h =>
      cases hv with
      | object hbetween =>
        rw [List.cons_append, readRecord, skipBlank_append_cons hb rfl]
        refine readObject_between hbetween hms (Draft.completes_empty.2 fun f => ?_) rest
        obtain ⟨w, hone, hw⟩ := h f
        exact ⟨w, hone, hw.shows⟩
    | list h =>
      cases hv with
      | list hbetween =>
        rw [List.cons_append, readRecord, skipBlank_append_cons hb rfl]
        refine readList_between hbetween rfl (h.imp fun f v hf => hf.shows) (fun f hf => ?_) rest
        exact absurd (by cases f <;> decide) hf

end AutomatonGrammar.Record
