import AutomatonGrammar.Proofs.Json.Skip
import AutomatonGrammar.Proofs.Record.Block
import AutomatonGrammar.Proofs.Record.Listing

/-!
# Which values are read

Each reader of a value takes just the texts of the values of its shape, with blanks in front, and leaves
what follows them (`Reads`). The readers of lists and objects do if the reader of their items does.

    Reads readName IsName                                                     (reads_name)
    readItems read shrinks isFirst text = .ok (xs, rest) ↔ ∃ vs t,
      Between ']' Value.Spells isFirst vs t ∧ List.Forall₂ IsItem vs xs ∧ text = t ++ rest
                                                                              (readItems_eq_ok_iff)
    Reads (readMap read shrinks) (IsMap IsItem)                               (reads_map)
-/

namespace AutomatonGrammar.Record

open Json

/-- The reader `read` takes the values that stand for something by `IsItem`, and answers what they
stand for. -/
def Reads {α : Type} (read : List Char → Result α) (IsItem : Value → α → Prop) : Prop :=
  ∀ ⦃text x rest⦄, read text = .ok (x, rest) ↔
    ∃ b v t, Blanks b ∧ Value.Spells v t ∧ IsItem v x ∧ text = b ++ (t ++ rest)

/-! ## What comes next -/

/-- The list ends at its closing bracket, whether or not an item stands in front of it. -/
theorem nextItem_eq_closed_iff {bracket : Bracket} {isFirst : Bool} {text rest : List Char} :
    nextItem bracket isFirst text = .ok (.closed rest) ↔
      ∃ b, Blanks b ∧ text = b ++ bracket.closing :: rest := by
  constructor
  · intro h
    unfold nextItem at h
    split at h
    · cases h
    · next c r hr =>
      obtain ⟨b, hb, rfl, -⟩ := skipBlank_eq_cons_iff.1 hr
      split at h
      · next hc =>
        cases h
        exact ⟨b, hb, by rw [hc]⟩
      split at h
      · cases h
      split at h
      · split at h
        · cases h
        · split at h <;> cases h
      · cases h
  · rintro ⟨b, hb, rfl⟩
    exact nextItem_closing _ _ (skipBlank_append_cons hb (isBlank_closing bracket) _)

/-- What is passed over in front of an item is blank, but for one comma if the item is not the first. -/
theorem exists_lead_of_nextItem {bracket : Bracket} {isFirst : Bool} {text item : List Char}
    (h : nextItem bracket isFirst text = .ok (.item item)) :
    ∃ p, Lead isFirst p ∧ text = p ++ item := by
  unfold nextItem at h
  split at h
  · cases h
  · next c r hr =>
    obtain ⟨b, hb, rfl, -⟩ := skipBlank_eq_cons_iff.1 hr
    split at h
    · cases h
    split at h
    · next hfirst =>
      cases h
      exact ⟨b, hfirst ▸ .first hb, rfl⟩
    · next hfirst =>
      rw [Bool.not_eq_true] at hfirst
      split at h
      · next hc =>
        split at h
        · cases h
        · next d r' hr' =>
          obtain ⟨b', hb', rfl, -⟩ := skipBlank_eq_cons_iff.1 hr'
          split at h
          · cases h
          · cases h
            exact ⟨b ++ ',' :: b', hfirst ▸ .next hb hb', by simp [hc]⟩
      · cases h

/-- What leads up to an item is passed over up to its first character. -/
theorem nextItem_lead (bracket : Bracket) {isFirst : Bool} {p t : List Char} (hp : Lead isFirst p)
    (ht : Starts t) : nextItem bracket isFirst (p ++ t) = .ok (.item t) := by
  obtain ⟨c, u, rfl, hc⟩ := ht
  have hblank : isBlank c = false := isBlank_of_not_mem_betweenValues hc
  have hne : c ≠ bracket.closing := by
    rintro rfl
    cases bracket <;> exact absurd hc (by decide)
  cases hp with
  | first hb =>
    rw [nextItem, skipBlank_append_cons hb hblank]
    simp [hne]
  | next hb hb' =>
    rw [List.append_assoc, List.cons_append, nextItem, skipBlank_append_cons hb rfl]
    simp only [comma_ne_closing, ↓reduceIte, Bool.false_eq_true, skipBlank_append_cons hb' hblank,
      hne]

theorem openValue_eq_ok_iff {wanted : Wanted} {opening : Char} (hopening : isBlank opening = false)
    {text rest : List Char} : openValue wanted opening text = .ok rest ↔
      ∃ b, Blanks b ∧ text = b ++ opening :: rest := by
  constructor
  · intro h
    unfold openValue at h
    split at h
    · cases h
    · next c r hr =>
      obtain ⟨b, hb, rfl, -⟩ := skipBlank_eq_cons_iff.1 hr
      split at h
      · next hc =>
        cases h
        exact ⟨b, hb, by rw [hc]⟩
      · cases h
  · rintro ⟨b, hb, rfl⟩
    rw [openValue, skipBlank_append_cons hb hopening]
    exact if_pos rfl

/-! ## Names and keys -/

theorem readString_map_eq_ok_iff {text rest : List Char} {s : String} :
    (readString text).map String.ofList = .ok (s, rest) ↔
      ∃ t, Spelling t s.toList ∧ text = t ++ '"' :: rest := by
  rw [Result.map_eq_ok]
  constructor
  · rintro ⟨cs, hcs, rfl⟩
    rw [String.toList_ofList]
    exact readString_eq_ok_iff.1 hcs
  · intro h
    exact ⟨s.toList, readString_eq_ok_iff.2 h, String.ofList_toList⟩

theorem reads_name : Reads readName IsName := by
  intro text s rest
  constructor
  · intro h
    unfold readName at h
    split at h
    · cases h
    · next r hr =>
      obtain ⟨b, hb, rfl⟩ := (openValue_eq_ok_iff rfl).1 hr
      obtain ⟨t, ht, rfl⟩ := readString_map_eq_ok_iff.1 h
      exact ⟨b, .string t, _, hb, .string ht.literal, ⟨t, rfl, ht⟩, by simp⟩
  · rintro ⟨b, v, u, hb, hv, ⟨t, rfl, ht⟩, rfl⟩
    cases hv
    rw [List.cons_append, List.append_assoc, readName, (openValue_eq_ok_iff rfl).2 ⟨b, hb, rfl⟩]
    exact readString_map_eq_ok_iff.2 ⟨t, ht, rfl⟩

/-- A key is a string, and is read for what it spells. -/
theorem readKey_eq_ok_iff {text rest : List Char} {key : String} :
    readKey text = .ok (key, rest) ↔
      ∃ t, Spelling t key.toList ∧ text = '"' :: (t ++ '"' :: rest) := by
  constructor
  · intro h
    unfold readKey at h
    split at h
    · cases h
    · split at h
      · next hc =>
        obtain ⟨t, ht, rfl⟩ := readString_map_eq_ok_iff.1 h
        exact ⟨t, ht, by rw [hc]⟩
      · cases h
  · rintro ⟨t, ht, rfl⟩
    rw [readKey, if_pos rfl]
    exact readString_map_eq_ok_iff.2 ⟨t, ht, rfl⟩

/-! ## Lists and objects -/

section Items

variable {α : Type} {read : List Char → Result α} {shrinks : Shrinks read}
  {IsItem : Value → α → Prop}

/-- What is read as a list are values between brackets and commas, and each item is what its reader says.
The induction follows the reader from item to item. -/
theorem exists_between_of_readItems (hread : Reads read IsItem) {isFirst : Bool} {xs : List α}
    {text rest : List Char} (h : readItems read shrinks isFirst text = .ok (xs, rest)) :
    ∃ vs t, Between ']' Value.Spells isFirst vs t ∧ List.Forall₂ IsItem vs xs ∧
      text = t ++ rest := by
  fun_induction readItems read shrinks isFirst text generalizing xs rest with
  | case1 => cases h
  | case2 isFirst text rest' hn =>
    cases h
    obtain ⟨b, hb, rfl⟩ := nextItem_eq_closed_iff.1 hn
    exact ⟨[], _, .closed hb, .nil, by simp [Bracket.closing]⟩
  | case3 => cases h
  | case4 => cases h
  | case5 isFirst text item hn x mid hr _ xs' rest' hrest ih =>
    cases h
    obtain ⟨p, hp, rfl⟩ := exists_lead_of_nextItem hn
    obtain ⟨b, v, t, hb, hv, hx, rfl⟩ := hread.1 hr
    obtain ⟨vs, u, hvs, hxs, rfl⟩ := ih hrest
    -- blanks that the item's own reader passes over still lead up to the item
    exact ⟨v :: vs, _, .item (hp.blanks hb) hv hvs, .cons hx hxs, by simp⟩

/-- Values between brackets and commas are read item by item, whatever follows the closing bracket. -/
theorem readItems_between (hread : Reads read IsItem) {isFirst : Bool} {vs : List Value}
    {xs : List α} {t : List Char} (h : Between ']' Value.Spells isFirst vs t)
    (hxs : List.Forall₂ IsItem vs xs) (rest : List Char) :
    readItems read shrinks isFirst (t ++ rest) = .ok (xs, rest) := by
  induction h generalizing xs with
  | closed hb =>
    cases hxs
    rw [List.append_assoc]
    exact readItems_closed (nextItem_eq_closed_iff.2 ⟨_, hb, rfl⟩)
  | item hp hv _ ih =>
    obtain _ | ⟨hx, hxs⟩ := hxs
    rw [List.append_assoc, List.append_assoc,
      readItems_item (nextItem_lead .list hp (hv.starts.append _))
        (hread.2 ⟨[], _, _, .nil, hv, hx, rfl⟩), ih hxs]
    rfl

/-- What is read as an object are members between braces and commas, each a key, a colon and a value. -/
theorem exists_between_of_readMembers (hread : Reads read IsItem) {isFirst : Bool}
    {es : List (String × α)} {text rest : List Char}
    (h : readMembers read shrinks isFirst text = .ok (es, rest)) :
    ∃ ms t, Between '\x7d' (Entry Value.Spells) isFirst ms t ∧
      List.Forall₂ (IsEntry IsItem) ms es ∧ text = t ++ rest := by
  fun_induction readMembers read shrinks isFirst text generalizing es rest with
  | case1 => cases h
  | case2 isFirst text rest' hn =>
    cases h
    obtain ⟨b, hb, rfl⟩ := nextItem_eq_closed_iff.1 hn
    exact ⟨[], _, .closed hb, .nil, by simp [Bracket.closing]⟩
  | case3 => cases h
  | case4 => cases h
  | case5 => cases h
  | case6 => cases h
  | case7 isFirst text member hn key mid hk value hc x rest' hr _ es' rest'' hrest ih =>
    cases h
    obtain ⟨p, hp, rfl⟩ := exists_lead_of_nextItem hn
    obtain ⟨k, hkey, rfl⟩ := readKey_eq_ok_iff.1 hk
    obtain ⟨b, hb, rfl⟩ := skipColon_eq_ok_iff.1 hc
    obtain ⟨b', v, t, hb', hv, hx, rfl⟩ := hread.1 hr
    obtain ⟨ms, u, hms, hes, rfl⟩ := ih hrest
    exact ⟨(k, v) :: ms, _, .item hp (.mk hkey.literal hb hb' hv) hms, .cons ⟨hkey, hx⟩ hes,
      by simp⟩

/-- Members between braces and commas are read one by one, whatever follows the closing brace. -/
theorem readMembers_between (hread : Reads read IsItem) {isFirst : Bool}
    {ms : List (List Char × Value)} {es : List (String × α)} {t : List Char}
    (h : Between '\x7d' (Entry Value.Spells) isFirst ms t)
    (hes : List.Forall₂ (IsEntry IsItem) ms es) (rest : List Char) :
    readMembers read shrinks isFirst (t ++ rest) = .ok (es, rest) := by
  induction h generalizing es with
  | closed hb =>
    cases hes
    rw [List.append_assoc]
    exact readMembers_closed (nextItem_eq_closed_iff.2 ⟨_, hb, rfl⟩)
  | @item isFirst m ms p t u hp hm _ ih =>
    obtain _ | @⟨_, e, _, es, ⟨hkey, hx⟩, hes⟩ := hes
    have hnext := nextItem_lead .object hp (hm.starts.append (u ++ rest))
    obtain @⟨k, b, b', t, v, -, hb, hb', hv⟩ := hm
    have hk : readKey ('"' :: (k ++ '"' :: (b ++ ':' :: (b' ++ t))) ++ (u ++ rest)) =
        .ok (e.1, b ++ ':' :: (b' ++ (t ++ (u ++ rest)))) :=
      readKey_eq_ok_iff.2 ⟨k, hkey, by simp⟩
    rw [List.append_assoc, List.append_assoc,
      readMembers_member hnext hk (skipColon_eq_ok_iff.2 ⟨b, hb, rfl⟩)
        (hread.2 ⟨b', v, t, hb', hv, hx, rfl⟩), ih hes]
    rfl

end Items

/-! ## The values of the fields -/

section Shapes

variable {α : Type} {read : List Char → Result α} {shrinks : Shrinks read}
  {IsItem : Value → α → Prop}

/-- A reader whose answers are changed by a function takes the same values. -/
theorem Reads.map {β : Type} (hread : Reads read IsItem) (f : α → β) :
    Reads (fun text => (read text).map f) fun v y => ∃ x, IsItem v x ∧ f x = y := by
  intro text y rest
  rw [Result.map_eq_ok]
  constructor
  · rintro ⟨x, hx, rfl⟩
    obtain ⟨b, v, t, hb, hv, hitem, rfl⟩ := hread.1 hx
    exact ⟨b, v, t, hb, hv, ⟨x, hitem, rfl⟩, rfl⟩
  · rintro ⟨b, v, t, hb, hv, ⟨x, hitem, rfl⟩, rfl⟩
    exact ⟨x, hread.2 ⟨b, v, t, hb, hv, hitem, rfl⟩, rfl⟩

/-- A list of names, taken as a set. -/
def IsSet (v : Value) (s : SortedSet String) : Prop := ∃ ss, IsNames v ss ∧ SortedSet.ofList ss = s

/-- An object, taken as a map. -/
def IsMap (IsItem : Value → α → Prop) (v : Value) (m : SortedMap String α) : Prop :=
  ∃ es, IsEntries IsItem v es ∧ SortedMap.ofList es = m

/-- Lists of strings are read as the set of what the strings spell. -/
theorem reads_names : Reads readNames IsSet := by
  intro text s rest
  constructor
  · intro h
    unfold readNames at h
    split at h
    · cases h
    · next r hr =>
      obtain ⟨b, hb, rfl⟩ := (openValue_eq_ok_iff rfl).1 hr
      obtain ⟨ss, hss, rfl⟩ := Result.map_eq_ok.1 h
      obtain ⟨vs, t, hvs, hnames, rfl⟩ := exists_between_of_readItems reads_name hss
      exact ⟨b, .list vs, _, hb, .list hvs, ⟨ss, ⟨vs, rfl, hnames⟩, rfl⟩, by simp⟩
  · rintro ⟨b, v, u, hb, hv, ⟨ss, ⟨vs, rfl, hnames⟩, rfl⟩, rfl⟩
    obtain _ | _ | _ | _ | _ | hvs | _ := hv
    rw [List.cons_append, readNames, (openValue_eq_ok_iff rfl).2 ⟨b, hb, rfl⟩]
    exact Result.map_eq_ok.2 ⟨ss, readItems_between reads_name hvs hnames rest, rfl⟩

/-- Objects are read as the map of their members; of two with one key the later counts. -/
theorem reads_map (hread : Reads read IsItem) : Reads (readMap read shrinks) (IsMap IsItem) := by
  intro text m rest
  constructor
  · intro h
    unfold readMap at h
    split at h
    · cases h
    · next r hr =>
      obtain ⟨b, hb, rfl⟩ := (openValue_eq_ok_iff rfl).1 hr
      obtain ⟨es, hes, rfl⟩ := Result.map_eq_ok.1 h
      obtain ⟨ms, t, hms, hentries, rfl⟩ := exists_between_of_readMembers hread hes
      exact ⟨b, .object ms, _, hb, .object hms, ⟨es, ⟨ms, rfl, hentries⟩, rfl⟩, by simp⟩
  · rintro ⟨b, v, u, hb, hv, ⟨es, ⟨ms, rfl, hentries⟩, rfl⟩, rfl⟩
    obtain _ | _ | _ | _ | _ | _ | hms := hv
    rw [List.cons_append, readMap, (openValue_eq_ok_iff rfl).2 ⟨b, hb, rfl⟩]
    exact Result.map_eq_ok.2 ⟨es, readMembers_between hread hms hentries rest, rfl⟩

theorem reads_transitions : Reads readTransitions (IsMap (IsMap IsName)) :=
  reads_map (reads_map reads_name)

end Shapes

end AutomatonGrammar.Record
