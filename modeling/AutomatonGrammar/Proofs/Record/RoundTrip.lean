import AutomatonGrammar.Proofs.Record.Block
import AutomatonGrammar.Proofs.Sorted.Rebuild

/-!
# Reading back records

What is written for an automaton is read as that automaton, whatever its names are made of and whether
or not it declares them; empty rows are kept.

    readName (quote s ++ rest) = .ok (s, rest)                               (readName_quote)
    readMap read shrinks (written m ++ rest) = .ok (m, rest)                 (readMap_written)
    d.read f (' ' :: (writeField a f ++ rest)) = .ok (d.fill a f, rest)      (Draft.read_written)
    read (write a) = .ok a                                                   (read_write)

Every lemma leaves the text behind the value open, so that the value can stand in a larger one.
-/

namespace AutomatonGrammar.Record

open Json

/-! ## Names and keys -/

theorem quote_starts (s : String) : ∃ text, quote s = '"' :: text := ⟨_, rfl⟩

/-- A name is read back from between its quotes, whatever follows. -/
theorem readName_quote (s : String) (rest : List Char) :
    readName (quote s ++ rest) = .ok (s, rest) := by
  obtain ⟨text, htext, hs⟩ := readString_quote s rest
  rw [htext, readName, openValue_opening .string rfl]
  show (readString text).map String.ofList = _
  rw [hs]
  simp [Result.map]

theorem readName_space (text : List Char) : readName (' ' :: text) = readName text := by
  rw [readName, openValue_space, readName]

theorem readKey_quote (s : String) (rest : List Char) : readKey (quote s ++ rest) = .ok (s, rest) := by
  obtain ⟨text, htext, hs⟩ := readString_quote s rest
  rw [htext, readKey, if_pos rfl, hs]
  simp [Result.map]

theorem writeMember_starts (key : String) (value : List Char) :
    ∃ text, writeMember key value = '"' :: text := ⟨_, rfl⟩

theorem quoted_map {α : Type} {write : α → List Char} (h : ∀ x, ∃ text, write x = '"' :: text)
    (xs : List α) : Quoted (xs.map write) := by
  intro item hm
  obtain ⟨x, -, rfl⟩ := List.mem_map.1 hm
  exact h x

theorem readKey_member (key : String) (value rest : List Char) :
    readKey (writeMember key value ++ rest) = .ok (key, ':' :: ' ' :: (value ++ rest)) := by
  rw [writeMember, List.append_assoc, List.append_assoc, readKey_quote]
  rfl

theorem skipColon_colon (rest : List Char) : skipColon (':' :: rest) = .ok rest := by
  rw [skipColon, skipBlank_of_not_blank rfl]
  rfl

/-! ## Lists and objects -/

section Values

variable {α : Type} {read : List Char → Result α} {shrinks : Shrinks read} {write : α → List Char}

/-- A list is read back item by item, if each item is. The induction is on the items. -/
theorem readItems_written (hread : ∀ x rest, read (write x ++ rest) = .ok (x, rest))
    (hquoted : ∀ x, ∃ text, write x = '"' :: text) (depth : Nat) {xs : List α} {isFirst : Bool}
    {text rest : List Char}
    (h : nextItem .list isFirst text = .ok (upNext .list depth rest (xs.map write))) :
    readItems read shrinks isFirst text = .ok (xs, rest) := by
  induction xs generalizing isFirst text with
  | nil => exact readItems_closed h
  | cons x xs ih =>
    rw [readItems_item h (hread x _),
      ih (nextItem_behind .list depth (quoted_map hquoted xs) rest)]
    rfl

/-- An object is read back member by member, if each value is. -/
theorem readMembers_written (hread : ∀ x rest, read (' ' :: (write x ++ rest)) = .ok (x, rest))
    (depth : Nat) {es : List (String × α)} {isFirst : Bool} {text rest : List Char}
    (h : nextItem .object isFirst text =
      .ok (upNext .object depth rest (es.map fun e => writeMember e.1 (write e.2)))) :
    readMembers read shrinks isFirst text = .ok (es, rest) := by
  induction es generalizing isFirst text with
  | nil => exact readMembers_closed h
  | cons e es ih =>
    have hq : Quoted (es.map fun e => writeMember e.1 (write e.2)) :=
      quoted_map (fun _ => writeMember_starts _ _) es
    rw [readMembers_member h (readKey_member _ _ _) (skipColon_colon _) (hread e.2 _),
      ih (nextItem_behind .object depth hq rest)]
    rfl

theorem readMap_written (hread : ∀ x rest, read (' ' :: (write x ++ rest)) = .ok (x, rest))
    (depth : Nat) (m : SortedMap String α) (rest : List Char) :
    readMap read shrinks (block depth '\x7b' '\x7d'
      (m.toList.map fun e => writeMember e.1 (write e.2)) ++ rest) = .ok (m, rest) := by
  have hq : Quoted (m.toList.map fun e => writeMember e.1 (write e.2)) :=
    quoted_map (fun _ => writeMember_starts _ _) m.toList
  obtain ⟨text, htext, hnext⟩ := nextItem_block .object depth '\x7b' hq rest
  rw [show '\x7d' = Bracket.object.closing from rfl, htext, readMap, openValue_opening .map rfl]
  show (readMembers read shrinks true text).map SortedMap.ofList = _
  rw [readMembers_written hread depth hnext]
  simp [Result.map, SortedMap.ofList_toList]

end Values

/-! ## The values of the fields -/

theorem readNames_written (s : SortedSet String) (rest : List Char) :
    readNames (writeNames s ++ rest) = .ok (s, rest) := by
  obtain ⟨text, htext, hnext⟩ :=
    nextItem_block .list 1 '[' (quoted_map quote_starts s.toList) rest
  rw [writeNames, show ']' = Bracket.list.closing from rfl, htext, readNames,
    openValue_opening .sequence rfl]
  show (readItems readName readName_shrinks true text).map SortedSet.ofList = _
  rw [readItems_written readName_quote quote_starts 1 hnext]
  simp [Result.map]

theorem readRow_written (row : Row) (rest : List Char) :
    readRow (writeRow row ++ rest) = .ok (row, rest) :=
  readMap_written (fun x rest => by rw [readName_space, readName_quote]) 2 row rest

/-- The transitions are read back row by row. -/
theorem readTransitions_written (t : Transitions) (rest : List Char) :
    readTransitions (writeTransitions t ++ rest) = .ok (t, rest) :=
  readMap_written (fun row rest => (readRow_written row rest : readRow (' ' :: _) = _)) 1 t rest

/-! ## Fields and records -/

/-- The draft with one field known, as it is in `a`. -/
def Draft.fill (a : Automaton) (d : Draft) : Field → Draft
  | .states => { d with states := some a.states }
  | .alphabet => { d with alphabet := some a.alphabet }
  | .transitions => { d with transitions := some a.transitions }
  | .start => { d with start := some a.start }
  | .accepting => { d with accepting := some a.accepting }

theorem Draft.has_fill (a : Automaton) (d : Draft) (f g : Field) :
    (d.fill a f).has g = (decide (g = f) || d.has g) := by
  cases f <;> cases g <;> rfl

/-- The field that is read is filled with what the automaton has there. -/
theorem Draft.read_written (a : Automaton) (d : Draft) (f : Field) (rest : List Char) :
    d.read f (' ' :: (writeField a f ++ rest)) = .ok (d.fill a f, rest) := by
  cases f with
  | states =>
    show (readNames (writeNames a.states ++ rest)).map _ = _
    rw [readNames_written]
    rfl
  | alphabet =>
    show (readNames (writeNames a.alphabet ++ rest)).map _ = _
    rw [readNames_written]
    rfl
  | transitions =>
    show (readTransitions (writeTransitions a.transitions ++ rest)).map _ = _
    rw [readTransitions_written]
    rfl
  | start =>
    show (readName (quote a.start ++ rest)).map _ = _
    rw [readName_quote]
    rfl
  | accepting =>
    show (readNames (writeNames a.accepting ++ rest)).map _ = _
    rw [readNames_written]
    rfl

theorem ofName?_name (f : Field) : Field.ofName? f.name = some f := by
  cases f <;> decide

/-- A field that has not been read yet is read from its member. -/
theorem readMember_written (a : Automaton) {d : Draft} {f : Field} (hd : d.has f = false)
    (rest : List Char) : readMember d f.name (':' :: ' ' :: (writeField a f ++ rest)) =
      .ok (d.fill a f, rest) := by
  rw [readMember, ofName?_name]
  simp only [hd, Bool.false_eq_true, ↓reduceIte, skipColon_colon]
  exact d.read_written a f rest

theorem readObject_closed {d : Draft} {isFirst : Bool} {text rest : List Char}
    (h : nextItem .object isFirst text = .ok (.closed rest)) :
    readObject d isFirst text = d.finish rest := by
  rw [readObject]
  split
  · next hn => rw [h] at hn; cases hn
  · next hn => rw [h] at hn; cases hn; rfl
  · next hn => rw [h] at hn; cases hn

theorem readObject_member {d d' : Draft} {isFirst : Bool} {text member rest₁ rest : List Char}
    {key : String} (h : nextItem .object isFirst text = .ok (.item member))
    (hk : readKey member = .ok (key, rest₁)) (hm : readMember d key rest₁ = .ok (d', rest)) :
    readObject d isFirst text = readObject d' false rest := by
  rw [readObject]
  split
  · next hn => rw [h] at hn; cases hn
  · next hn => rw [h] at hn; cases hn
  · next hn =>
    rw [h] at hn
    cases hn
    split
    · next hr => rw [hk] at hr; cases hr
    · next hr =>
      rw [hk] at hr
      cases hr
      split
      · next hr => rw [hm] at hr; cases hr
      · next hr => rw [hm] at hr; cases hr; rfl

/-- Reading the members of the fields `fs` fills them in, one after another. -/
theorem readObject_written (a : Automaton) {fs : List Field} {d : Draft} {isFirst : Bool}
    {text rest : List Char} (hfs : fs.Nodup) (hd : ∀ f ∈ fs, d.has f = false)
    (h : nextItem .object isFirst text =
      .ok (upNext .object 0 rest (fs.map fun f => writeMember f.name (writeField a f)))) :
    readObject d isFirst text = (fs.foldl (Draft.fill a) d).finish rest := by
  induction fs generalizing d isFirst text with
  | nil => exact readObject_closed h
  | cons f fs ih =>
    have ⟨hf, hfs⟩ := List.nodup_cons.1 hfs
    have hq : Quoted (fs.map fun f => writeMember f.name (writeField a f)) :=
      quoted_map (fun _ => writeMember_starts _ _) fs
    rw [readObject_member h (readKey_member _ _ _) (readMember_written a (hd f (.head _)) _)]
    refine ih hfs (fun g hg => ?_) (nextItem_behind .object 0 hq rest)
    have hne : g ≠ f := fun e => hf (e ▸ hg)
    simpa [Draft.has_fill, hne] using hd g (.tail _ hg)

theorem readAll_writeChars (a : Automaton) : readAll (writeChars a) = .ok a := by
  have hq : Quoted (Field.all.map fun f => writeMember f.name (writeField a f)) :=
    quoted_map (fun _ => writeMember_starts _ _) Field.all
  obtain ⟨text, htext, hnext⟩ := nextItem_block .object 0 '\x7b' hq []
  have hread : readRecord (writeChars a) = .ok (a, []) := by
    rw [List.append_nil] at htext
    rw [writeChars, show '\x7d' = Bracket.object.closing from rfl, htext, readRecord,
      skipBlank_of_not_blank rfl]
    show readObject .empty true text = _
    rw [readObject_written a (by decide) (fun f _ => by cases f <;> rfl) hnext]
    rfl
  rw [readAll, hread]
  rfl

theorem read_write (a : Automaton) : read (write a) = .ok a := by
  rw [read, write, String.toList_ofList, readAll_writeChars]
  rfl

end AutomatonGrammar.Record
