import AutomatonGrammar.Form.Basic
import AutomatonGrammar.Proofs.Form.Line

/-!
# Lists of names

A list of names is read entry by entry: it is cut at the commas, and each entry gives the name that is in
it, or nothing if it is blank. So a list that is two lists with a comma between them is read as the one and
then the other, and reading joined entries is reading each of them.

    readNames (t ++ "," ++ u) = readNames t ++ readNames u                      (readNames_append)
    readNames (",".intercalate es) = es.flatMap readNames                       (readNames_intercalate)

Blanks around a name and blank entries are all that is lost (`Padded`).
-/

namespace AutomatonGrammar.Form

open Text

/-- A text without anything but blanks. -/
def IsBlank (s : String) : Prop := ∀ c ∈ s.toList, isBlank c = true

instance (s : String) : Decidable (IsBlank s) :=
  decidable_of_iff (s.toList.all isBlank = true) List.all_eq_true

/-- The entries `es` hold the names `ns`: one entry for each name, which may have blanks on both sides of
it, and blank entries anywhere. -/
inductive Padded : List String → List String → Prop
  | nil : Padded [] []
  | blank {e : String} {es ns : List String} : IsBlank e → Padded es ns → Padded (e :: es) ns
  | name {l r : String} (n : String) {es ns : List String} : IsBlank l → IsBlank r → Padded es ns →
      Padded ((l ++ n ++ r) :: es) (n :: ns)

/-! ## Entry by entry -/

theorem readNames_append (t u : String) : readNames (t ++ "," ++ u) = readNames t ++ readNames u := by
  have hsplit : split ',' (t ++ "," ++ u).toList = split ',' t.toList ++ split ',' u.toList := by
    rw [String.toList_append, String.toList_append, List.append_assoc]
    exact split_append ',' t.toList u.toList
  simp only [readNames, hsplit, List.map_append, List.filter_append]

theorem readNames_intercalate (es : List String) :
    readNames (",".intercalate es) = es.flatMap readNames := by
  induction es with
  | nil => rfl
  | cons e es ih =>
    cases es with
    | nil => simp
    | cons f es =>
      rw [String.intercalate_cons_cons, readNames_append, ih, ← List.flatMap_cons]

/-! ## One entry -/

theorem IsBlank.no_comma {s : String} (h : IsBlank s) : ',' ∉ s.toList := fun hc =>
  absurd (h ',' hc) (by decide)

theorem readNames_of_no_comma {e : String} (h : ',' ∉ e.toList) :
    readNames e = if trim e.toList = [] then [] else [.ofList (trim e.toList)] := by
  rw [readNames, split_of_not_mem h, List.map_singleton, List.filter_singleton]
  by_cases ht : trim e.toList = []
  · simp [ht]
  · simp [ht]

theorem readNames_blank {e : String} (h : IsBlank e) : readNames e = [] := by
  rw [readNames_of_no_comma h.no_comma, if_pos (trim_eq_nil_iff.2 h)]

theorem readNames_name {l n r : String} (hl : IsBlank l) (hr : IsBlank r) (hn : IsListName n) :
    readNames (l ++ n ++ r) = [n] := by
  have htrim : trim (l ++ n ++ r).toList = n.toList := by
    rw [String.toList_append, String.toList_append, trim_append_blank hr, trim_blank_append hl, hn.trimmed]
  have hcomma : ',' ∉ (l ++ n ++ r).toList := by
    simp only [String.toList_append, List.mem_append, not_or]
    exact ⟨⟨hl.no_comma, hn.no_comma⟩, hr.no_comma⟩
  rw [readNames_of_no_comma hcomma, htrim, if_neg (toList_ne_nil hn.ne_empty), String.ofList_toList]

/-! ## Whole lists -/

theorem isListName_of_mem_readNames {text s : String} (h : s ∈ readNames text) : IsListName s := by
  obtain ⟨name, hname, rfl⟩ := List.mem_map.1 h
  obtain ⟨hpiece, hne⟩ := List.mem_filter.1 hname
  obtain ⟨piece, hmem, rfl⟩ := List.mem_map.1 hpiece
  constructor
  · simpa using hne
  · simp [trim_trim]
  · simpa using fun hm => not_mem_of_mem_split hmem ((isInfix_trim piece).subset hm)

theorem readNames_padded {es ns : List String} (h : Padded es ns) (hns : ∀ n ∈ ns, IsListName n) :
    readNames (",".intercalate es) = ns := by
  rw [readNames_intercalate]
  induction h with
  | nil => rfl
  | blank he _ ih => rw [List.flatMap_cons, readNames_blank he, ih hns, List.nil_append]
  | name n hl hr _ ih =>
    obtain ⟨hn, hns⟩ := List.forall_mem_cons.1 hns
    rw [List.flatMap_cons, readNames_name hl hr hn, ih hns, List.singleton_append]

theorem padded_self (ns : List String) : Padded ns ns := by
  induction ns with
  | nil => exact .nil
  | cons n ns ih => simpa using Padded.name (l := "") (r := "") n (by decide) (by decide) ih

theorem readNames_join {ns : List String} (h : ∀ n ∈ ns, IsListName n) :
    readNames (",".intercalate ns) = ns :=
  readNames_padded (padded_self ns) h

theorem ofList_readNames_names {s : SortedSet String} (h : ∀ x ∈ s, IsListName x) :
    SortedSet.ofList (readNames (names s)) = s := by
  rw [names, readNames_join h, SortedSet.ofList_toList]

/-- Any text without the blanks at its ends is a name in its entry, unless nothing is left of it. -/
theorem Padded.entry {es ns : List String} (h : Padded es ns) (p : List Char) :
    Padded (.ofList p :: es) (if trim p = [] then ns else .ofList (trim p) :: ns) := by
  split
  · next hp => exact .blank (fun c hc => trim_eq_nil_iff.1 hp c (by rwa [String.toList_ofList] at hc)) h
  · obtain ⟨l, r, hl, hr, heq⟩ := exists_eq_blank_trim_blank p
    have hentry : String.ofList p = .ofList l ++ .ofList (trim p) ++ .ofList r := by
      rw [← String.ofList_append, ← String.ofList_append, ← heq]
    rw [hentry]
    exact .name _ (by rwa [IsBlank, String.toList_ofList]) (by rwa [IsBlank, String.toList_ofList]) h

/-- Every list is names with blanks around them, and blank entries. -/
theorem exists_padded (text : String) :
    ∃ es, text = ",".intercalate es ∧ Padded es (readNames text) := by
  refine ⟨(split ',' text.toList).map String.ofList, ?_, ?_⟩
  · rw [← String.toList_inj, String.toList_intercalate, List.map_map]
    simpa [Function.comp_def] using (intercalate_split ',' text.toList).symm
  · unfold readNames
    induction split ',' text.toList with
    | nil => exact .nil
    | cons p ps ih =>
      have hentry := ih.entry p
      by_cases hp : trim p = []
      · simpa [hp] using hentry
      · simpa [hp] using hentry

theorem readNames_eq_iff {text : String} {ns : List String} :
    readNames text = ns ↔
      (∀ n ∈ ns, IsListName n) ∧ ∃ es, text = ",".intercalate es ∧ Padded es ns := by
  constructor
  · rintro rfl
    exact ⟨fun _ hn => isListName_of_mem_readNames hn, exists_padded text⟩
  · rintro ⟨hns, es, rfl, hpadded⟩
    exact readNames_padded hpadded hns

/-- **How a list of names is read.**  Two lists with a comma between them are read as the one and then the
other.  What is read are names that can stand in a list: none is empty, has a blank at either end or a comma
in it; joined by commas they are read again as the same names.  A text is read as given names of that kind
exactly if it consists of entries for them, one each with any blanks around the name, and of blank entries. -/
theorem readNames_exact :
    (∀ t u, readNames (t ++ "," ++ u) = readNames t ++ readNames u) ∧
    (∀ text, (∀ n ∈ readNames text, IsListName n) ∧
      readNames (",".intercalate (readNames text)) = readNames text) ∧
    (∀ text ns, readNames text = ns ↔
      (∀ n ∈ ns, IsListName n) ∧ ∃ es, text = ",".intercalate es ∧ Padded es ns) := by
  have hnames : ∀ text, ∀ n ∈ readNames text, IsListName n := fun _ _ hn =>
    isListName_of_mem_readNames hn
  refine ⟨readNames_append, fun text => ⟨hnames text, ?_⟩, fun _ _ => readNames_eq_iff⟩
  exact readNames_join (hnames text)

/-- The first name has a line feed and a blank that is no space around it, the second one a space inside. -/
theorem readNames_exact_oddBlanks :
    (∀ n ∈ ["q0", "q 1"], IsListName n) ∧ readNames "\u00a0q0\n,, \t,q 1," = ["q0", "q 1"] := by
  have hns : ∀ n ∈ ["q0", "q 1"], IsListName n := by
    simp only [List.forall_mem_cons, List.not_mem_nil, false_implies, implies_true, and_true]
    exact ⟨⟨by decide, by decide, by decide⟩, ⟨by decide, by decide, by decide⟩⟩
  have hpadded : Padded ["\u00a0" ++ "q0" ++ "\n", "", " \t", "" ++ "q 1" ++ "", ""] ["q0", "q 1"] :=
    .name "q0" (by decide) (by decide) <| .blank (by decide) <| .blank (by decide) <|
      .name "q 1" (by decide) (by decide) <| .blank (by decide) .nil
  exact ⟨hns, (readNames_exact.2.2 _ _).2 ⟨hns, _, by decide, hpadded⟩⟩

end AutomatonGrammar.Form
