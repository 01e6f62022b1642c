import AutomatonGrammar.Folder

/-!
# Writing files

A file goes to one location, which is no folder (`place_eq_ok`). What was a folder before stays one, so
every path that leads through folders leads to the same place afterwards, and a text that has been
written to a path is what is read from it (`read_of_write`). Nothing else changes (`rewritten_iff`).
-/

namespace AutomatonGrammar.Folder

variable {f g : Folder}

theorem item_eq_directory_iff {l : Location} :
    f.item l = .directory ↔ f.files.get? l = none ∧
      (l.isAbove ∨ (∃ k contents, f.files.get? k = some contents ∧ l.isPrefixOf k) ∨
        ∃ k ∈ f.directories, l.isPrefixOf k) := by
  unfold item
  cases f.files.get? l with
  | some contents => simp
  | none =>
    have hany : f.files.toList.any (fun entry => l.isPrefixOf entry.1) = true ↔
        ∃ k contents, f.files.get? k = some contents ∧ l.isPrefixOf k := by
      simp only [List.any_eq_true, Prod.exists, SortedMap.mem_toList_iff]
    have hdirectories : f.directories.toList.any (l.isPrefixOf ·) = true ↔
        ∃ k ∈ f.directories, l.isPrefixOf k := by
      simp only [List.any_eq_true, SortedSet.mem_toList]
    rw [← hany, ← hdirectories]
    simp only [true_and]
    split
    · next h => exact iff_of_true rfl h
    · next h => exact iff_of_false (by simp) h

/-! ## The folder behind a written file -/

theorem item_put_self (l : Location) (contents : Contents) :
    (f.put l contents).item l = .file contents := by
  simp [item, put, SortedMap.get?_insert]

theorem item_put_directory {l m : Location} (hl : f.item l ≠ .directory)
    (hm : f.item m = .directory) (contents : Contents) :
    (f.put l contents).item m = .directory := by
  have hne : m ≠ l := fun e => hl (e ▸ hm)
  obtain ⟨hnone, hm⟩ := item_eq_directory_iff.1 hm
  refine item_eq_directory_iff.2 ⟨by simpa [put, SortedMap.get?_insert, hne] using hnone, ?_⟩
  rcases hm with h | ⟨k, old, hk, hp⟩ | hdirectory
  · exact Or.inl h
  · refine Or.inr (Or.inl ?_)
    by_cases hkl : k = l
    · exact ⟨k, contents, by simp [put, SortedMap.get?_insert, hkl], hp⟩
    · exact ⟨k, old, by simpa [put, SortedMap.get?_insert, hkl] using hk, hp⟩
  · exact Or.inr (Or.inr hdirectory)

theorem follow_put {l : Location} (hl : f.item l ≠ .directory) (contents : Contents)
    {names : List String} {here there : Location} (h : f.follow here names = .ok there) :
    (f.put l contents).follow here names = .ok there := by
  induction names generalizing here with
  | nil => exact h
  | cons name names ih =>
    simp only [follow] at h ⊢
    cases hs : step here name with
    | error fault =>
      rw [hs] at h
      cases h
    | ok next =>
      rw [hs] at h
      simp only [bind, Except.bind] at h ⊢
      cases hi : f.item next with
      | directory =>
        rw [hi] at h
        rw [item_put_directory hl hi]
        exact ih h
      | file old =>
        rw [hi] at h
        cases h
      | nothing =>
        rw [hi] at h
        cases h

theorem enter_put {l : Location} (hl : f.item l ≠ .directory) (contents : Contents) {path : String}
    {here : Location} (h : f.enter path = .ok here) :
    (f.put l contents).enter path = .ok here := by
  unfold enter at h ⊢
  split at h
  · cases h
  · next hnul =>
    split at h
    · cases h
    · next hlong =>
      rw [if_neg hnul, if_neg hlong]
      exact follow_put hl contents h

/-! ## Paths -/

/-- Two steps that may fail succeed together if each of them does. -/
theorem bind_eq_ok_iff {ε α β : Type} {x : Except ε α} {next : α → Except ε β} {b : β} :
    x >>= next = .ok b ↔ ∃ a, x = .ok a ∧ next a = .ok b := by
  cases x with
  | error e => simp [bind, Except.bind]
  | ok a => simp [bind, Except.bind]

/-- The path leads to the location. -/
def Locates (f : Folder) (path : String) (l : Location) : Prop :=
  ∃ here, f.enter path = .ok here ∧ step here (steps path).last = .ok l

/-- A file may be put at the location to which the path leads. -/
structure Admits (f : Folder) (path : String) (l : Location) : Prop where
  locates : f.Locates path l
  slashAtEnd : (steps path).slashAtEnd = false
  item : f.item l ≠ .directory
  ban : f.ban? l = none

theorem mayWrite_eq_ok_iff {l : Location} : f.mayWrite l = .ok () ↔ f.ban? l = none := by
  unfold mayWrite
  cases f.ban? l with
  | none => simp
  | some ban => simp

theorem place_eq_ok_iff {path : String} {contents : Contents} :
    f.place path contents = .ok g ↔ ∃ l, f.Admits path l ∧ g = f.put l contents := by
  unfold place
  constructor
  · intro h
    obtain ⟨here, he, h⟩ := bind_eq_ok_iff.1 h
    cases hslash : (steps path).slashAtEnd with
    | true =>
      rw [hslash] at h
      cases h
    | false =>
      rw [hslash] at h
      obtain ⟨l, hs, h⟩ := bind_eq_ok_iff.1 h
      cases hi : f.item l with
      | directory =>
        rw [hi] at h
        cases h
      | _ =>
        rw [hi] at h
        obtain ⟨_, hban, h⟩ := bind_eq_ok_iff.1 h
        cases h
        exact ⟨l, ⟨⟨here, he, hs⟩, hslash, by simp [hi], mayWrite_eq_ok_iff.1 hban⟩, rfl⟩
  · rintro ⟨l, ⟨⟨here, he, hs⟩, hslash, hitem, hban⟩, rfl⟩
    refine bind_eq_ok_iff.2 ⟨here, he, ?_⟩
    rw [hslash]
    refine bind_eq_ok_iff.2 ⟨l, hs, ?_⟩
    cases hi : f.item l with
    | directory => exact absurd hi hitem
    | _ => exact bind_eq_ok_iff.2 ⟨(), mayWrite_eq_ok_iff.2 hban, rfl⟩

theorem read_eq_ok_iff {path text : String} : f.read path = .ok text ↔
    ∃ l, f.Locates path l ∧ (steps path).slashAtEnd = false ∧
      f.item l = .file (.text text) ∧ f.mayRead l = .ok () := by
  unfold read
  constructor
  · intro h
    obtain ⟨here, he, h⟩ := bind_eq_ok_iff.1 h
    obtain ⟨l, hs, h⟩ := bind_eq_ok_iff.1 h
    cases hi : f.item l with
    | file contents =>
      rw [hi] at h
      cases hslash : (steps path).slashAtEnd with
      | true =>
        rw [hslash] at h
        cases h
      | false =>
        rw [hslash] at h
        obtain ⟨_, hread, h⟩ := bind_eq_ok_iff.1 h
        cases contents with
        | text value =>
          cases h
          exact ⟨l, ⟨here, he, hs⟩, rfl, hi, hread⟩
        | binary bytes => cases h
    | _ =>
      rw [hi] at h
      cases h
  · rintro ⟨l, ⟨here, he, hs⟩, hslash, hi, hread⟩
    refine bind_eq_ok_iff.2 ⟨here, he, bind_eq_ok_iff.2 ⟨l, hs, ?_⟩⟩
    rw [hi, hslash]
    exact bind_eq_ok_iff.2 ⟨(), hread, rfl⟩

/-- What has been written may be read. -/
theorem Admits.mayRead {path : String} {l : Location} (h : f.Admits path l) (contents : Contents) :
    (f.put l contents).mayRead l = .ok () := by
  rw [Folder.mayRead, show (f.put l contents).ban? l = none from h.ban]

theorem Admits.locates_put {path : String} {l : Location} (h : f.Admits path l) (contents : Contents) :
    (f.put l contents).Locates path l := by
  obtain ⟨here, he, hs⟩ := h.locates
  exact ⟨here, enter_put h.item contents he, hs⟩

theorem read_of_write {path text : String} (h : f.write path text = .ok g) :
    g.read path = .ok text := by
  obtain ⟨l, hl, rfl⟩ := place_eq_ok_iff.1 h
  exact read_eq_ok_iff.2
    ⟨l, hl.locates_put _, hl.slashAtEnd, item_put_self l _, hl.mayRead _⟩

/-- A path that is one plain name leads to a file in the folder itself. -/
theorem admits_name {name : String} (hsteps : steps name = ⟨[], [], name, false⟩)
    (hnul : name.contains '\x00' = false) (hshort : name.utf8ByteSize ≤ 255)
    (hitem : f.item (Location.next [] name) ≠ .directory) (hban : f.ban? (Location.next [] name) = none) :
    f.Admits name (Location.next [] name) := by
  have henter : f.enter name = .ok [] := by
    rw [enter, hnul, if_neg Bool.false_ne_true, if_neg (by omega), hsteps]
    rfl
  have hlast : (steps name).last = name := by rw [hsteps]
  have hstep : step [] (steps name).last = .ok (Location.next [] name) := by
    rw [hlast, step, if_neg (by omega)]
  exact ⟨⟨[], henter, hstep⟩, by rw [hsteps], hitem, hban⟩

/-! ## What a write changes -/

/-- The second folder is the first one with a text in the file at a path, where a file may be put. No other
file is made, changed or removed. -/
structure Rewritten (f : Folder) (path text : String) (g : Folder) : Prop where
  read : g.read path = .ok text
  files : ∃ l, f.Locates path l ∧ f.item l ≠ .directory ∧ f.ban? l = none ∧
    g.files.get? l = some (.text text) ∧ ∀ m, m ≠ l → g.files.get? m = f.files.get? m
  directories : g.directories = f.directories
  bans : g.ban? = f.ban?

theorem rewritten_iff {path text : String} : f.Rewritten path text g ↔ f.write path text = .ok g := by
  constructor
  · rintro ⟨hread, ⟨l, hl, hitem, hban, htext, hothers⟩, hdirectories, hbans⟩
    have hfiles : g.files = f.files.insert l (.text text) := by
      refine SortedMap.ext_iff_get?.2 fun m => ?_
      rw [SortedMap.get?_insert]
      split
      · next hm => exact hm ▸ htext
      · next hm => exact hothers m hm
    have hg : g = f.put l (.text text) := by
      obtain ⟨files, directories, bans⟩ := g
      cases hfiles
      cases hdirectories
      cases hbans
      rfl
    obtain ⟨_, -, hslash, -⟩ := read_eq_ok_iff.1 hread
    exact place_eq_ok_iff.2 ⟨l, ⟨hl, hslash, hitem, hban⟩, hg⟩
  · intro h
    have hread := read_of_write h
    obtain ⟨l, hl, rfl⟩ := place_eq_ok_iff.1 h
    refine ⟨hread, ⟨l, hl.locates, hl.item, hl.ban, ?_, fun m hm => ?_⟩, rfl, rfl⟩
    · simp [put, SortedMap.get?_insert]
    · simp [put, SortedMap.get?_insert, hm]

theorem Rewritten.unique {path text : String} {g' : Folder} (h : f.Rewritten path text g)
    (h' : f.Rewritten path text g') : g = g' :=
  Except.ok.inj ((rewritten_iff.1 h).symm.trans (rewritten_iff.1 h'))

end AutomatonGrammar.Folder
