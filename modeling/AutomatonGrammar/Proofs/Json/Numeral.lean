import AutomatonGrammar.Json.Numeral
import AutomatonGrammar.Proofs.Json.Grammar

/-!
# Numbers, as they are read

A number is read part by part, and each part as far as it goes. So what is read is a number
(`number_of_readNumeral`), and a number is read to its end where the text behind it cannot be part of it
(`exists_readNumeral`).
-/

namespace AutomatonGrammar.Json

/-! ## Digits -/

/-- A text that does not start with a digit. -/
def NoDigit (t : List Char) : Prop := ∀ c u, t = c :: u → c.isDigit = false

theorem digits_takeDigits {text : List Char} (h : (takeDigits text).1 ≠ []) :
    Digits (takeDigits text).1 :=
  ⟨h, fun _ hc => List.all_eq_true.1 List.all_takeWhile _ hc⟩

theorem takeDigits_of_noDigit {rest : List Char} (hr : NoDigit rest) :
    takeDigits rest = ([], rest) := by
  cases rest with
  | nil => rfl
  | cons c rest => simp [takeDigits, hr c rest rfl]

/-- All digits are taken, and they end where the text behind them starts with something else. -/
theorem takeDigits_digits {t rest : List Char} (h : Digits t) (hr : NoDigit rest) :
    takeDigits (t ++ rest) = (t, rest) := by
  have hrest := Prod.mk.inj (takeDigits_of_noDigit hr)
  rw [takeDigits, List.takeWhile_append_of_pos h.2, List.dropWhile_append_of_pos h.2, hrest.1, hrest.2,
    List.append_nil]

theorem Digits.exists_head {t : List Char} (h : Digits t) : ∃ c u, t = c :: u ∧ c.isDigit = true := by
  cases t with
  | nil => exact absurd rfl h.1
  | cons c u => exact ⟨c, u, rfl, h.2 c (.head _)⟩

/-! ## In front of the point -/

/-- What is read is a zero alone, or digits that do not start with one. -/
theorem wholePart_of_readWhole {early : Problem} {text w rest : List Char}
    (h : readWhole early text = .ok (w, rest)) : WholePart w ∧ text = w ++ rest := by
  unfold readWhole at h
  split at h
  · split at h
    · cases h
      exact ⟨.zero, rfl⟩
    · cases h
  · next hzero =>
    split at h
    · cases h
    · next hd =>
      obtain ⟨c, u, hc, hdigit⟩ := (digits_takeDigits hd).exists_head
      simp only [Except.ok.injEq] at h
      have ht := takeDigits_append text
      rw [h] at hc ht hd
      have hdigits : Digits w := by
        have := @digits_takeDigits text (by rw [h]; exact hd)
        rwa [h] at this
      refine ⟨?_, ht.symm⟩
      simp only at hc
      subst hc
      refine .digits (fun h0 => ?_) hdigits
      subst h0
      exact hzero _ ht.symm

/-- A whole part is read to its end, where no digit follows. -/
theorem readWhole_wholePart (early : Problem) {w rest : List Char} (h : WholePart w)
    (hr : NoDigit rest) : readWhole early (w ++ rest) = .ok (w, rest) := by
  cases h with
  | zero => simp [readWhole, takeDigits_of_noDigit hr]
  | @digits c t hc h =>
    rw [readWhole, takeDigits_digits h hr, if_neg h.1]
    rintro rest' h'
    exact hc (List.cons.inj h').1

/-! ## Behind the point -/

/-- What is read is nothing, or a point with digits behind it. -/
theorem fractionPart_of_readFraction {early : Problem} {text f rest : List Char}
    (h : readFraction early text = .ok (f, rest)) : ∃ t, FractionPart t ∧ text = t ++ rest := by
  unfold readFraction at h
  split at h
  · next text =>
    split at h
    · cases h
    · next hd =>
      have ht := takeDigits_append text
      simp only [Except.ok.injEq] at h
      have hdigits := digits_takeDigits hd
      rw [h] at hdigits ht
      exact ⟨'.' :: f, .digits hdigits, by simp [← ht]⟩
  · cases h
    exact ⟨[], .none, rfl⟩

theorem exists_readFraction (early : Problem) {t rest : List Char} (h : FractionPart t)
    (hr : ∀ c u, rest = c :: u → c.isDigit = false ∧ c ≠ '.') :
    ∃ f, readFraction early (t ++ rest) = .ok (f, rest) := by
  cases h with
  | none =>
    refine ⟨[], ?_⟩
    rw [List.nil_append, readFraction]
    rintro rest' rfl
    exact (hr _ _ rfl).2 rfl
  | @digits t h =>
    refine ⟨t, ?_⟩
    rw [List.cons_append, readFraction, takeDigits_digits h fun c u hc => (hr c u hc).1, if_neg h.1]

/-! ## The exponent -/

theorem exponent_of_readExponentDigits {early : Problem} {text rest : List Char} {x : Exponent}
    (h : readExponentDigits early text = .ok (x, rest)) :
    ∃ sign t, (sign = [] ∨ sign = ['+'] ∨ sign = ['-']) ∧ Digits t ∧ text = sign ++ (t ++ rest) := by
  have hread : ∀ {u : List Char} {negative : Bool},
      (if (takeDigits u).1 = [] then Except.error (stopNumeral early u)
        else .ok (⟨negative, (takeDigits u).1⟩, (takeDigits u).2)) = .ok (x, rest) →
      ∃ t, Digits t ∧ u = t ++ rest := by
    intro u negative h
    split at h
    · cases h
    · next hd =>
      cases h
      exact ⟨_, digits_takeDigits hd, (takeDigits_append u).symm⟩
  unfold readExponentDigits at h
  cases text with
  | nil =>
    obtain ⟨t, ht, hu⟩ := hread h
    exact ⟨[], t, .inl rfl, ht, hu⟩
  | cons c u =>
    by_cases hm : c = '-'
    · subst hm
      obtain ⟨t, ht, rfl⟩ := hread h
      exact ⟨['-'], t, .inr (.inr rfl), ht, rfl⟩
    · by_cases hp : c = '+'
      · subst hp
        obtain ⟨t, ht, rfl⟩ := hread h
        exact ⟨['+'], t, .inr (.inl rfl), ht, rfl⟩
      · simp only [takeSign, hm, hp, ↓reduceIte, Bool.false_eq_true] at h
        obtain ⟨t, ht, hu⟩ := hread h
        exact ⟨[], t, .inl rfl, ht, hu⟩

theorem exists_readExponentDigits (early : Problem) {sign t rest : List Char}
    (hs : sign = [] ∨ sign = ['+'] ∨ sign = ['-']) (h : Digits t) (hr : NoDigit rest) :
    ∃ x, readExponentDigits early (sign ++ (t ++ rest)) = .ok (x, rest) := by
  have htake := takeDigits_digits h hr
  rcases hs with rfl | rfl | rfl
  · obtain ⟨c, u, rfl, hc⟩ := h.exists_head
    have hm : c ≠ '-' := by rintro rfl; cases hc
    have hp : c ≠ '+' := by rintro rfl; cases hc
    refine ⟨⟨false, c :: u⟩, ?_⟩
    simp only [List.cons_append, List.nil_append] at htake ⊢
    simp only [readExponentDigits, takeSign, hm, hp, ↓reduceIte, Bool.false_eq_true, htake,
      List.cons_ne_nil]
  · refine ⟨⟨false, t⟩, ?_⟩
    have hne : '+' ≠ '-' := by decide
    simp only [List.singleton_append, readExponentDigits, takeSign, hne, ↓reduceIte,
      Bool.false_eq_true, htake, h.1]
  · refine ⟨⟨true, t⟩, ?_⟩
    simp only [List.singleton_append, readExponentDigits, takeSign, ↓reduceIte, htake, h.1]

/-- What is read is nothing, or an `e` with digits behind it, which may have a sign. -/
theorem exponentPart_of_readExponent {early : Problem} {text rest : List Char} {x : Option Exponent}
    (h : readExponent early text = .ok (x, rest)) : ∃ t, ExponentPart t ∧ text = t ++ rest := by
  unfold readExponent at h
  split at h
  · split at h
    · next hc =>
      split at h
      · cases h
      · next hx =>
        cases h
        obtain ⟨sign, t, hs, ht, rfl⟩ := exponent_of_readExponentDigits hx
        exact ⟨_, .digits hc hs ht, by simp⟩
    · cases h
      exact ⟨[], .none, rfl⟩
  · cases h
    exact ⟨[], .none, rfl⟩

/-- An exponent is read to its end, where the text behind it cannot be part of a number. -/
theorem exists_readExponent (early : Problem) {t rest : List Char} (h : ExponentPart t)
    (hr : Ends rest) : ∃ x, readExponent early (t ++ rest) = .ok (x, rest) := by
  cases h with
  | none =>
    refine ⟨none, ?_⟩
    cases rest with
    | nil => rfl
    | cons c u =>
      obtain ⟨-, -, he, hE⟩ := hr c u rfl
      simp [readExponent, he, hE]
  | @digits c sign t hc hs h =>
    obtain ⟨x, hx⟩ := exists_readExponentDigits early hs h fun c u hc => (hr c u hc).1
    refine ⟨some x, ?_⟩
    rw [List.cons_append, List.append_assoc, readExponent, if_pos hc, hx]

/-! ## Whole numbers -/

theorem ExponentPart.noPoint {t rest : List Char} (h : ExponentPart t) (hr : Ends rest) :
    ∀ c u, t ++ rest = c :: u → c.isDigit = false ∧ c ≠ '.' := by
  intro c u hc
  cases h with
  | none =>
    obtain ⟨hd, hp, -⟩ := hr c u hc
    exact ⟨hd, hp⟩
  | digits he =>
    cases hc
    rcases he with rfl | rfl <;> decide

theorem FractionPart.noDigit {t rest : List Char} (h : FractionPart t)
    (hr : ∀ c u, rest = c :: u → c.isDigit = false ∧ c ≠ '.') : NoDigit (t ++ rest) := by
  intro c u hc
  cases h with
  | none => exact (hr c u hc).1
  | digits =>
    cases hc
    rfl

theorem takeSign_append (sign : Char) (text : List Char) :
    ∃ s, (s = [] ∨ s = [sign]) ∧ text = s ++ (takeSign sign text).2 := by
  cases text with
  | nil => exact ⟨[], .inl rfl, rfl⟩
  | cons c u =>
    by_cases h : c = sign
    · exact ⟨[sign], .inr rfl, by simp [takeSign, h]⟩
    · exact ⟨[], .inl rfl, by simp [takeSign, h]⟩

theorem WholePart.exists_head {t : List Char} (h : WholePart t) :
    ∃ c u, t = c :: u ∧ c.isDigit = true := by
  cases h with
  | zero => exact ⟨'0', [], rfl, rfl⟩
  | digits _ h => exact h.exists_head

/-- **What is read is a number**: a sign, a whole part, a fraction and an exponent, each by its reader. -/
theorem number_of_readNumeral {early : Problem} {text rest : List Char} {n : Numeral}
    (h : readNumeral early text = .ok (n, rest)) : ∃ t, Number t ∧ text = t ++ rest := by
  unfold readNumeral at h
  simp only at h
  obtain ⟨sign, hs, ht⟩ := takeSign_append '-' text
  split at h
  · cases h
  · next whole rest₁ hw =>
    obtain ⟨hwhole, hrest⟩ := wholePart_of_readWhole hw
    split at h
    · cases h
    · next hf =>
      obtain ⟨f, hfraction, rfl⟩ := fractionPart_of_readFraction hf
      split at h
      · cases h
      · next he =>
        obtain ⟨e, hexponent, rfl⟩ := exponentPart_of_readExponent he
        cases h
        refine ⟨_, .mk hs hwhole hfraction hexponent, ?_⟩
        rw [ht, hrest]
        simp

/-- **A number is read to its end**, where the text behind it cannot be part of it. -/
theorem exists_readNumeral (early : Problem) {t rest : List Char} (h : Number t) (hr : Ends rest) :
    ∃ n, readNumeral early (t ++ rest) = .ok (n, rest) := by
  cases h with
  | @mk sign whole fraction exponent hs hw hf he =>
    have hpoint := he.noPoint hr
    obtain ⟨x, hx⟩ := exists_readExponent early he hr
    obtain ⟨f, hfr⟩ := exists_readFraction early hf hpoint
    have hwr := readWhole_wholePart early hw (hf.noDigit hpoint)
    have hsign : ∃ negative, takeSign '-' (sign ++ (whole ++ (fraction ++ (exponent ++ rest)))) =
        (negative, whole ++ (fraction ++ (exponent ++ rest))) := by
      rcases hs with rfl | rfl
      · obtain ⟨c, u, rfl, hc⟩ := hw.exists_head
        have hm : c ≠ '-' := by rintro rfl; cases hc
        exact ⟨false, by simp [takeSign, hm]⟩
      · exact ⟨true, rfl⟩
    obtain ⟨negative, hsign⟩ := hsign
    refine ⟨⟨negative, whole, f, x⟩, ?_⟩
    simp only [List.append_assoc, readNumeral, hsign, hwr, hfr, hx]

end AutomatonGrammar.Json
