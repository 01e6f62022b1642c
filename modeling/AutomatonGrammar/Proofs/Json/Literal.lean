import AutomatonGrammar.Json.Token
import AutomatonGrammar.Proofs.Json.Grammar
import AutomatonGrammar.Proofs.Json.Quoted

/-!
# Blanks and strings, as they are read

What the readers of blanks, colons, escapes and strings take off the front of a text.

    skipBlank text = c :: rest ↔ ∃ b, Blanks b ∧ text = b ++ c :: rest ∧ isBlank c = false
                                                                           (skipBlank_eq_cons_iff)
    readString text = .ok (s, rest) ↔ ∃ t, Spelling t s ∧ text = t ++ '"' :: rest
                                                                           (readString_eq_ok_iff)
    skipString text = .ok rest ↔ ∃ t, Literal t ∧ text = t ++ '"' :: rest  (skipString_eq_ok_iff)
-/

namespace AutomatonGrammar.Json

/-! ## Blanks -/

theorem isBlank_iff {c : Char} :
    isBlank c = true ↔ c = ' ' ∨ c = '\n' ∨ c = '\t' ∨ c = '\r' := by
  simp [isBlank, or_assoc]

theorem isBlank_of_not_mem_betweenValues {c : Char} (h : c ∉ betweenValues) : isBlank c = false := by
  rw [Bool.eq_false_iff]
  intro hb
  apply h
  rcases isBlank_iff.1 hb with rfl | rfl | rfl | rfl <;> decide

theorem skipBlank_blanks {b : List Char} (hb : Blanks b) (text : List Char) :
    skipBlank (b ++ text) = skipBlank text :=
  List.dropWhile_append_of_pos fun c hc => isBlank_iff.2 (hb c hc)

theorem exists_blanks_skipBlank (text : List Char) : ∃ b, Blanks b ∧ text = b ++ skipBlank text :=
  ⟨text.takeWhile isBlank, fun _ hc => isBlank_iff.1 (List.all_eq_true.1 List.all_takeWhile _ hc),
    List.takeWhile_append_dropWhile.symm⟩

theorem skipBlank_eq_nil_iff {text : List Char} : skipBlank text = [] ↔ Blanks text := by
  constructor
  · intro h
    obtain ⟨b, hb, ht⟩ := exists_blanks_skipBlank text
    rw [h, List.append_nil] at ht
    exact ht ▸ hb
  · intro h
    have := skipBlank_blanks h []
    rwa [List.append_nil] at this

/-- What is left of a text with more than blanks starts at the first character that is none. -/
theorem skipBlank_eq_cons_iff {text rest : List Char} {c : Char} :
    skipBlank text = c :: rest ↔
      ∃ b, Blanks b ∧ text = b ++ c :: rest ∧ isBlank c = false := by
  constructor
  · intro h
    obtain ⟨b, hb, ht⟩ := exists_blanks_skipBlank text
    rw [h] at ht
    refine ⟨b, hb, ht, ?_⟩
    have hhead := List.head?_dropWhile_not isBlank text
    rw [show text.dropWhile isBlank = c :: rest from h] at hhead
    simpa using hhead
  · rintro ⟨b, hb, rfl, hc⟩
    rw [skipBlank_blanks hb, skipBlank, List.dropWhile_cons, hc]
    rfl

theorem skipBlank_append_cons {b : List Char} {c : Char} (hb : Blanks b) (hc : isBlank c = false)
    (rest : List Char) : skipBlank (b ++ c :: rest) = c :: rest :=
  skipBlank_eq_cons_iff.2 ⟨b, hb, rfl, hc⟩

/-- A colon is passed over with the blanks in front of it. -/
theorem skipColon_eq_ok_iff {text rest : List Char} :
    skipColon text = .ok rest ↔ ∃ b, Blanks b ∧ text = b ++ ':' :: rest := by
  unfold skipColon
  constructor
  · intro h
    split at h
    · cases h
    · next c r hr =>
      obtain ⟨b, hb, ht, -⟩ := skipBlank_eq_cons_iff.1 hr
      split at h
      · next hc =>
        cases h
        exact ⟨b, hb, hc ▸ ht⟩
      · cases h
  · rintro ⟨b, hb, rfl⟩
    rw [skipBlank_append_cons hb rfl]
    rfl

/-! ## Hexadecimal digits -/

theorem HexDigit.lt {c : Char} {n : Nat} (h : HexDigit c n) : n < 16 := by
  rcases h with h | h <;> exact (List.getElem?_eq_some_iff.1 h).1

theorem hexDigit?_of_hexDigit {c : Char} {n : Nat} (h : HexDigit c n) : hexDigit? c = some n := by
  have hlower : ∀ i < 16, ("0123456789abcdef".toList[i]?).bind hexDigit? = some i := by decide
  have hupper : ∀ i < 16, ("0123456789ABCDEF".toList[i]?).bind hexDigit? = some i := by decide
  have hn : n < 16 := h.lt
  rcases h with h | h
  · have hread := hlower n hn
    rwa [h] at hread
  · have hread := hupper n hn
    rwa [h] at hread

/-- A character is told by its place in a range. -/
theorem exists_eq_ofNat {c : Char} {first last : Char} (h₁ : first ≤ c) (h₂ : c ≤ last) :
    ∃ i < last.toNat - first.toNat + 1, c = Char.ofNat (first.toNat + i) ∧
      c.toNat - first.toNat = i := by
  have h₁ : first.toNat ≤ c.toNat := h₁
  have h₂ : c.toNat ≤ last.toNat := h₂
  refine ⟨c.toNat - first.toNat, by omega, ?_, rfl⟩
  rw [Nat.add_sub_cancel' h₁, Char.ofNat_toNat]

/-- Only the sixteen digits are read, the letters among them in either case. -/
theorem hexDigit_of_hexDigit? {c : Char} {n : Nat} (h : hexDigit? c = some n) : HexDigit c n := by
  have hdigit : ∀ i < 10, "0123456789abcdef".toList[i]? = some (Char.ofNat ('0'.toNat + i)) := by
    decide
  have hlower : ∀ i < 6, "0123456789abcdef".toList[i + 10]? = some (Char.ofNat ('a'.toNat + i)) := by
    decide
  have hupper : ∀ i < 6, "0123456789ABCDEF".toList[i + 10]? = some (Char.ofNat ('A'.toNat + i)) := by
    decide
  unfold hexDigit? at h
  split at h
  · next hc =>
    obtain ⟨i, hi, rfl, hn⟩ := exists_eq_ofNat hc.1 hc.2
    cases h
    rw [hn]
    exact .inl (hdigit i hi)
  · split at h
    · next hc =>
      obtain ⟨i, hi, rfl, hn⟩ := exists_eq_ofNat hc.1 hc.2
      cases h
      rw [hn]
      exact .inl (hlower i hi)
    · split at h
      · next hc =>
        obtain ⟨i, hi, rfl, hn⟩ := exists_eq_ofNat hc.1 hc.2
        cases h
        rw [hn]
        exact .inr (hupper i hi)
      · cases h

theorem hexNumber?_eq_some_iff {p q r s : Char} {n : Nat} :
    hexNumber? p q r s = some n ↔ Hex [p, q, r, s] n := by
  unfold hexNumber?
  constructor
  · intro h
    split at h
    · next hp hq hr hs =>
      cases h
      exact .mk (hexDigit_of_hexDigit? hp) (hexDigit_of_hexDigit? hq) (hexDigit_of_hexDigit? hr)
        (hexDigit_of_hexDigit? hs)
    · cases h
  · rintro ⟨hp, hq, hr, hs⟩
    rw [hexDigit?_of_hexDigit hp, hexDigit?_of_hexDigit hq, hexDigit?_of_hexDigit hr,
      hexDigit?_of_hexDigit hs]

/-- Four digits are read as a number, neither fewer nor more. -/
theorem readHex_eq_ok_iff {text rest : List Char} {n : Nat} :
    readHex text = .ok (n, rest) ↔ ∃ ds, Hex ds n ∧ text = ds ++ rest := by
  constructor
  · intro h
    unfold readHex at h
    split at h
    · split at h
      · next hn =>
        cases h
        exact ⟨_, hexNumber?_eq_some_iff.1 hn, rfl⟩
      · cases h
    · cases h
  · rintro ⟨ds, hds, rfl⟩
    cases hds with
    | mk hp hq hr hs =>
      simp only [List.cons_append, List.nil_append, readHex,
        hexNumber?_eq_some_iff.2 (.mk hp hq hr hs)]

/-! ## Escapes -/

theorem isHighSurrogate_iff {n : Nat} : isHighSurrogate n = true ↔ 0xD800 ≤ n ∧ n ≤ 0xDBFF := by
  simp [isHighSurrogate]

theorem isLowSurrogate_iff {n : Nat} : isLowSurrogate n = true ↔ 0xDC00 ≤ n ∧ n ≤ 0xDFFF := by
  simp [isLowSurrogate]

theorem toNat_ofNat {n : Nat} (h : n.isValidChar) : (Char.ofNat n).toNat = n := by
  rw [Char.ofNat, dif_pos h]
  rfl

theorem Hex.lt {ds : List Char} {n : Nat} (h : Hex ds n) : n < 0x10000 := by
  obtain ⟨hp, hq, hr, hs⟩ := h
  have := hp.lt
  have := hq.lt
  have := hr.lt
  have := hs.lt
  omega

/-- No character is half a surrogate pair. -/
theorem not_surrogate (c : Char) :
    isLowSurrogate c.toNat = false ∧ isHighSurrogate c.toNat = false := by
  have hc : c.toNat < 0xD800 ∨ 0xDFFF < c.toNat ∧ c.toNat < 0x110000 := c.valid
  rw [Bool.eq_false_iff, Bool.eq_false_iff, ne_eq, ne_eq, isLowSurrogate_iff, isHighSurrogate_iff]
  omega

theorem toNat_pairChar {m n : Nat} (hm : 0xD800 ≤ m ∧ m ≤ 0xDBFF) (hn : 0xDC00 ≤ n ∧ n ≤ 0xDFFF) :
    (pairChar m n).toNat = 0x10000 + (m - 0xD800) * 0x400 + (n - 0xDC00) :=
  toNat_ofNat (.inr (by omega))

/-- What is read behind `\u` is one code unit, or two that are a surrogate pair. -/
theorem escape_of_readUnicode {text rest : List Char} {c : Char}
    (h : readUnicode text = .ok (c, rest)) :
    ∃ e, Escape ('\\' :: 'u' :: e) c ∧ text = e ++ rest := by
  unfold readUnicode at h
  split at h
  · cases h
  · next n rest₁ hr =>
    obtain ⟨ds, hds, rfl⟩ := readHex_eq_ok_iff.1 hr
    split at h
    · cases h
    · next hlow =>
      split at h
      · next hhigh =>
        split at h
        · split at h
          · cases h
          · next m rest₂ hr' =>
            obtain ⟨ds', hds', rfl⟩ := readHex_eq_ok_iff.1 hr'
            split at h
            · next hlow' =>
              simp only [Except.ok.injEq, Prod.mk.injEq] at h
              obtain ⟨rfl, rfl⟩ := h
              have hm := isHighSurrogate_iff.1 hhigh
              have hn := isLowSurrogate_iff.1 hlow'
              exact ⟨_, .pair hds hds' hm hn (toNat_pairChar hm hn), by simp⟩
            · cases h
        · cases h
      · next hhigh =>
        cases h
        have hlt := hds.lt
        rw [isLowSurrogate_iff] at hlow
        rw [isHighSurrogate_iff] at hhigh
        have hn : n.isValidChar := by
          show n < 0xD800 ∨ 0xDFFF < n ∧ n < 0x110000
          omega
        exact ⟨ds, .unit (by rwa [toNat_ofNat hn]), rfl⟩

theorem ne_of_mem_shortEscapes {l c : Char} (h : (l, c) ∈ shortEscapes) : l ≠ 'u' := by
  rintro rfl
  exact absurd h (by simp [shortEscapes])

/-- Every code unit and every surrogate pair is read, whatever follows it. -/
theorem readUnicode_of_escape {e rest : List Char} {c : Char} (h : Escape ('\\' :: 'u' :: e) c) :
    readUnicode (e ++ rest) = .ok (c, rest) := by
  unfold readUnicode
  cases h with
  | letter h => exact absurd rfl (ne_of_mem_shortEscapes h)
  | unit h =>
    rw [readHex_eq_ok_iff.2 ⟨_, h, rfl⟩]
    simp only [not_surrogate, Char.ofNat_toNat, Bool.false_eq_true, ↓reduceIte]
  | @pair ds ds' m n c h h' hm hn hc =>
    have hhigh : isHighSurrogate m = true := isHighSurrogate_iff.2 hm
    have hlow : isLowSurrogate m = false := by
      rw [Bool.eq_false_iff, ne_eq, isLowSurrogate_iff]
      omega
    have hlow' : isLowSurrogate n = true := isLowSurrogate_iff.2 hn
    have hchar : pairChar m n = c := by
      rw [← Char.ofNat_toNat c, hc]
      rfl
    rw [List.append_assoc, readHex_eq_ok_iff.2 ⟨ds, h, rfl⟩]
    simp only [hlow, hhigh, List.cons_append, Bool.false_eq_true, ↓reduceIte,
      readHex_eq_ok_iff.2 ⟨ds', h', rfl⟩, hlow', hchar]

theorem escaped?_eq_some_iff {l c : Char} : escaped? l = some c ↔ (l, c) ∈ shortEscapes := by
  constructor
  · intro h
    unfold escaped? at h
    split at h <;> cases h <;> decide
  · intro h
    have hall : ∀ e ∈ shortEscapes, escaped? e.1 = some e.2 := by decide
    exact hall _ h

/-- The escapes that are read behind a backslash are those of the grammar. -/
theorem readEscape_eq_ok_iff {text rest : List Char} {c : Char} :
    readEscape text = .ok (c, rest) ↔ ∃ e, Escape ('\\' :: e) c ∧ text = e ++ rest := by
  constructor
  · intro h
    unfold readEscape at h
    split at h
    · cases h
    · obtain ⟨e, he, rfl⟩ := escape_of_readUnicode h
      exact ⟨'u' :: e, he, rfl⟩
    · split at h
      · next hd =>
        cases h
        exact ⟨[_], .letter (escaped?_eq_some_iff.1 hd), rfl⟩
      · cases h
  · rintro ⟨e, he, rfl⟩
    generalize hf : '\\' :: e = f at he
    cases he with
    | @letter l c h =>
      cases hf
      have hu : l ≠ 'u' := ne_of_mem_shortEscapes h
      simp only [List.singleton_append, readEscape, escaped?_eq_some_iff.2 h]
    | unit h =>
      cases hf
      exact readUnicode_of_escape (.unit h)
    | pair h h' hm hn hc =>
      cases hf
      exact readUnicode_of_escape (.pair h h' hm hn hc)

/-! ## Strings -/

theorem plain_iff {c : Char} : Plain c ↔ c ≠ '"' ∧ c ≠ '\\' ∧ isControl c = false := by
  simp [Plain, isControl]

theorem Escape.exists_tail {e : List Char} {c : Char} (h : Escape e c) : ∃ e', e = '\\' :: e' := by
  cases h <;> exact ⟨_, rfl⟩

/-- A string is read up to the first quote that no backslash stands in front of, and read for the
characters that it spells. -/
theorem readString_eq_ok_iff {text s rest : List Char} :
    readString text = .ok (s, rest) ↔ ∃ t, Spelling t s ∧ text = t ++ '"' :: rest := by
  constructor
  · intro h
    fun_induction readString text generalizing s rest with
    | case1 => cases h
    | case2 =>
      cases h
      exact ⟨[], .nil, rfl⟩
    | case3 => cases h
    | case4 => cases h
    | case5 text c rest' he _ s' rest'' hr ih =>
      cases h
      obtain ⟨e, hesc, rfl⟩ := readEscape_eq_ok_iff.1 he
      obtain ⟨t, ht, rfl⟩ := ih hr
      exact ⟨_, .escape hesc ht, by simp⟩
    | case6 => cases h
    | case7 => cases h
    | case8 c rest' hq hb hc s' rest'' hr ih =>
      cases h
      obtain ⟨t, ht, rfl⟩ := ih hr
      exact ⟨c :: t, .plain (plain_iff.2 ⟨hq, hb, by simpa using hc⟩) ht, rfl⟩
  · rintro ⟨t, ht, rfl⟩
    induction ht with
    | nil => simp [readString]
    | plain hc _ ih =>
      obtain ⟨hq, hb, hc⟩ := plain_iff.1 hc
      rw [List.cons_append, readString_plain hq hb hc, ih]
      rfl
    | @escape e t s c he _ ih =>
      obtain ⟨e', rfl⟩ := he.exists_tail
      rw [List.append_assoc, List.cons_append,
        readString_escape (readEscape_eq_ok_iff.2 ⟨e', he, rfl⟩), ih]
      rfl

theorem spelling_iff_readString {t s : List Char} :
    Spelling t s ↔ readString (t ++ ['"']) = .ok (s, []) := by
  rw [readString_eq_ok_iff]
  constructor
  · intro h
    exact ⟨t, h, rfl⟩
  · rintro ⟨t', h, he⟩
    rwa [List.append_cancel_right he]

/-- A literal spells one string only. -/
theorem Spelling.unique {t s s' : List Char} (h : Spelling t s) (h' : Spelling t s') : s = s' := by
  rw [spelling_iff_readString] at h h'
  rw [h] at h'
  cases h'
  rfl

/-- An escape that is passed over is a letter or one code unit, and that may be half of a pair. -/
theorem skipEscape_eq_ok_iff {text rest : List Char} :
    skipEscape text = .ok rest ↔
      (∃ l c, (l, c) ∈ shortEscapes ∧ text = l :: rest) ∨
      ∃ ds n, Hex ds n ∧ text = 'u' :: (ds ++ rest) := by
  constructor
  · intro h
    unfold skipEscape at h
    split at h
    · cases h
    · split at h
      · cases h
      · next n _ hr =>
        cases h
        obtain ⟨ds, hds, rfl⟩ := readHex_eq_ok_iff.1 hr
        exact .inr ⟨ds, n, hds, rfl⟩
    · split at h
      · next hd =>
        cases h
        exact .inl ⟨_, _, escaped?_eq_some_iff.1 hd, rfl⟩
      · cases h
  · rintro (⟨l, c, h, rfl⟩ | ⟨ds, n, h, rfl⟩)
    · have hu : l ≠ 'u' := ne_of_mem_shortEscapes h
      simp only [skipEscape, escaped?_eq_some_iff.2 h]
    · simp only [skipEscape, readHex_eq_ok_iff.2 ⟨ds, h, rfl⟩]

theorem skipString_escape {text rest : List Char} (h : skipEscape text = .ok rest) :
    skipString ('\\' :: text) = skipString rest := by
  rw [skipString]
  split
  · next he =>
    rw [h] at he
    cases he
  · next he =>
    rw [h] at he
    cases he
    rfl

/-- A string that is passed over ends where it would if it were read, and need not spell anything. -/
theorem skipString_eq_ok_iff {text rest : List Char} :
    skipString text = .ok rest ↔ ∃ t, Literal t ∧ text = t ++ '"' :: rest := by
  constructor
  · intro h
    fun_induction skipString text with
    | case1 => cases h
    | case2 =>
      cases h
      exact ⟨[], .nil, rfl⟩
    | case3 => cases h
    | case4 text rest' he _ ih =>
      obtain ⟨t, ht, rfl⟩ := ih h
      rcases skipEscape_eq_ok_iff.1 he with ⟨l, c, hl, rfl⟩ | ⟨ds, n, hds, rfl⟩
      · exact ⟨_, .letter hl ht, rfl⟩
      · exact ⟨_, .unit hds ht, by simp⟩
    | case5 => cases h
    | case6 c rest' hq hb hc ih =>
      obtain ⟨t, ht, rfl⟩ := ih h
      exact ⟨c :: t, .plain (plain_iff.2 ⟨hq, hb, by simpa using hc⟩) ht, rfl⟩
  · rintro ⟨t, ht, rfl⟩
    induction ht with
    | nil => simp [skipString]
    | plain hc _ ih =>
      obtain ⟨hq, hb, hc⟩ := plain_iff.1 hc
      rw [List.cons_append, skipString, if_neg (by simp [hc]), ih]
      · exact hq
      · exact hb
    | letter hl _ ih =>
      rw [List.cons_append, List.cons_append,
        skipString_escape (skipEscape_eq_ok_iff.2 (.inl ⟨_, _, hl, rfl⟩)), ih]
    | unit hn _ ih =>
      rw [List.cons_append, List.cons_append, List.append_assoc,
        skipString_escape (skipEscape_eq_ok_iff.2 (.inr ⟨_, _, hn, rfl⟩)), ih]

end AutomatonGrammar.Json
