import AutomatonGrammar.Proofs.Folder.Write
import AutomatonGrammar.Proofs.Record.RoundTrip
import AutomatonGrammar.Record.Document

/-!
# Saving and loading records

An automaton is loaded from where its record is found, and its record is found where it has been saved
(`read_write_load_save`).
-/

namespace AutomatonGrammar.Record

theorem load_of_read {a : Automaton} {read : String → Except FileFault String} {path : String}
    (h : read path = .ok (write a)) : load read path = .ok a := by
  rw [load, h]
  show (Record.read (write a)).mapError Error.record = _
  rw [read_write]
  rfl

theorem save_eq_ok_iff {o : Output} {folder folder' : Folder} :
    o.save folder = .ok folder' ↔ folder.write o.path o.text = .ok folder' := by
  unfold Output.save
  cases folder.write o.path o.text with
  | error fault =>
    constructor
    · intro h
      cases h
    · intro h
      cases h
  | ok g =>
    show Except.ok g = Except.ok folder' ↔ Except.ok g = Except.ok folder'
    rw [Except.ok.injEq, Except.ok.injEq]

theorem save_eq_ok {o : Output} {folder folder' : Folder} (h : o.save folder = .ok folder') :
    folder.write o.path o.text = .ok folder' :=
  save_eq_ok_iff.1 h

/-- **A record gives back its automaton**, read from its text, from any file that holds that text, and
from the file it has been saved to. -/
theorem read_write_load_save (a : Automaton) :
    Record.read (write a) = .ok a ∧
    (∀ (read : String → Except FileFault String) (path : String),
      read path = .ok (output a path).text → load read path = .ok a) ∧
    ∀ (folder folder' : Folder) (path : String),
      (output a path).save folder = .ok folder' → load folder'.read path = .ok a := by
  refine ⟨read_write a, fun read path h => load_of_read h, ?_⟩
  intro folder folder' path h
  exact load_of_read (Folder.read_of_write (save_eq_ok h))

/-- An automaton with names that need escapes, an empty name, an empty row and an undeclared start. -/
def oddNames : Automaton where
  states := .ofList ["", "say \"hi\"\\", "\x01\n", "𝄞"]
  alphabet := .ofList ["ε"]
  transitions := .ofList [("", ∅), ("𝄞", .ofList [("\t", "lost")])]
  start := "nowhere"
  accepting := ∅

theorem emptyFolder_admits : Folder.empty.Admits "a.json" ["a.json"] := by
  have hitem : Folder.empty.item (.next [] "a.json") = .nothing := by rfl
  exact Folder.admits_name (by rfl) (by simp) (by decide) (by simp [hitem]) rfl

theorem load_save_oddNames : ∃ folder, (output oddNames "a.json").save Folder.empty = .ok folder ∧
    load folder.read "a.json" = .ok oddNames := by
  have hs : (output oddNames "a.json").save Folder.empty =
      .ok (Folder.empty.put ["a.json"] (.text (write oddNames))) :=
    save_eq_ok_iff.2 (Folder.place_eq_ok_iff.2 ⟨_, emptyFolder_admits, rfl⟩)
  exact ⟨_, hs, (read_write_load_save oddNames).2.2 _ _ _ hs⟩

end AutomatonGrammar.Record
