import Tabletop.Proofs.Number.Numeral

/-!
# What reads as a number

The free form of numbers that a console accepts, as a grammar: an optional sign, and behind it one
of three words in any case, or digits with or without a point among them and with or without an
exponent (`Number.IsSpelled`). A text reads as a number when it is spelled so, and only then
(`Number.isSome_ofText?_iff`).

Reading takes the longest run of digits at each place, so a text has to be taken apart where reading
does. It can be, since nothing that may follow a run of digits is a digit, and nothing that may
follow a sign is another sign.
-/

namespace Tabletop

namespace Numeral

/-! ## The grammar -/

/-- Digits only. -/
def AllDigits (cs : List Char) : Prop := ∀ c ∈ cs, c.isDigit = true

/-- An optional sign. -/
def IsSign (cs : List Char) : Prop := cs = [] ∨ cs = ['-'] ∨ cs = ['+']

/-- An optional exponent: its mark, an optional sign, and digits. -/
def IsExponent (cs : List Char) : Prop :=
  cs = [] ∨ ∃ mark sign ds, cs = mark :: (sign ++ ds) ∧ (mark = 'e' ∨ mark = 'E') ∧
    IsSign sign ∧ ds ≠ [] ∧ AllDigits ds

/-- What may stand behind the sign of a decimal numeral: digits, a point with or without digits
behind it, and an exponent. There is at least one digit in front of the exponent. -/
def IsDecimal (cs : List Char) : Prop :=
  ∃ whole point fraction exponent, cs = whole ++ (point ++ fraction ++ exponent) ∧
    AllDigits whole ∧ (point = ['.'] ∨ point = [] ∧ fraction = []) ∧ AllDigits fraction ∧
    (whole ≠ [] ∨ fraction ≠ []) ∧ IsExponent exponent

/-! ## Reading a text apart -/

variable {cs ds sign body rest : List Char}

theorem exists_sign (cs : List Char) : ∃ sign, IsSign sign ∧ cs = sign ++ (takeSign cs).2 := by
  rw [takeSign.eq_def]
  split
  · exact ⟨['-'], .inr (.inl rfl), rfl⟩
  · exact ⟨['+'], .inr (.inr rfl), rfl⟩
  · exact ⟨[], .inl rfl, rfl⟩

/-- A sign is taken off a text that does not begin with another one. -/
theorem takeSign_append (hsign : IsSign sign) (hbody : ∀ c ∈ body.head?, c ≠ '-' ∧ c ≠ '+') :
    (takeSign (sign ++ body)).2 = body := by
  obtain rfl | rfl | rfl := hsign
  · rw [List.nil_append, takeSign.eq_def]
    split
    · exact absurd rfl (hbody _ rfl).1
    · exact absurd rfl (hbody _ rfl).2
    · rfl
  · rfl
  · rfl

theorem allDigits_takeDigits (cs : List Char) : AllDigits (takeDigits cs).1 :=
  fun _ hc ↦ List.mem_takeWhile_imp hc

theorem takeDigits_append_eq (cs : List Char) : (takeDigits cs).1 ++ (takeDigits cs).2 = cs :=
  List.takeWhile_append_dropWhile

theorem ne_sign_of_isDigit {c : Char} (h : c.isDigit = true) : c ≠ '-' ∧ c ≠ '+' := by
  constructor <;> rintro rfl <;> exact absurd h (by decide)

theorem head?_ne_sign (hds : AllDigits ds) (hne : ds ≠ []) :
    ∀ c ∈ (ds ++ rest).head?, c ≠ '-' ∧ c ≠ '+' := by
  obtain ⟨d, ds, rfl⟩ := List.exists_cons_of_ne_nil hne
  rintro _ ⟨⟩
  exact ne_sign_of_isDigit (hds d List.mem_cons_self)

/-- An exponent is read to its end, and nothing else is. -/
theorem exists_takeExponent?_iff : (∃ e, takeExponent? cs = some (e, [])) ↔ IsExponent cs := by
  constructor
  · rintro ⟨e, h⟩
    cases cs with
    | nil => exact .inl rfl
    | cons c cs =>
      rw [takeExponent?] at h
      split at h
      · rename_i hmark
        dsimp only at h
        split at h
        · exact absurd h (by simp)
        · rename_i hne
          obtain ⟨-, hrest⟩ := Prod.mk.inj (Option.some.inj h)
          obtain ⟨sign, hsign, hcs⟩ := exists_sign cs
          have hdigits := takeDigits_append_eq (takeSign cs).2
          rw [hrest, List.append_nil] at hdigits
          refine .inr ⟨c, sign, (takeDigits (takeSign cs).2).1, ?_, hmark, hsign,
            mt List.isEmpty_iff.mpr hne, allDigits_takeDigits _⟩
          rw [hdigits, ← hcs]
      · exact absurd h (by simp)
  · rintro (rfl | ⟨mark, sign, ds, rfl, hmark, hsign, hne, hds⟩)
    · exact ⟨0, rfl⟩
    · have hbody : ∀ c ∈ ds.head?, c ≠ '-' ∧ c ≠ '+' := List.append_nil ds ▸ head?_ne_sign hds hne
      have hdigits : takeDigits ds = (ds, []) := by
        have htake : takeDigits (ds ++ []) = (ds, []) := takeDigits_append hds (by simp)
        rwa [List.append_nil] at htake
      rw [takeExponent?, if_pos hmark]
      simp only [takeSign_append hsign hbody, hdigits, List.isEmpty_eq_false_iff.mpr hne,
        Bool.false_eq_true, if_false]
      exact ⟨_, rfl⟩

/-- What may follow the digits of a numeral begins with no digit. -/
theorem isDigit_head?_exponent (h : IsExponent cs) : ∀ c ∈ cs.head?, c.isDigit = false := by
  obtain rfl | ⟨mark, sign, ds, rfl, rfl | rfl, -⟩ := h
  · simp
  · rintro _ ⟨⟩
    decide
  · rintro _ ⟨⟩
    decide

theorem exists_point (cs : List Char) :
    ∃ point, cs = point ++ (takeFraction cs).1 ++ (takeFraction cs).2 ∧
      (point = ['.'] ∨ point = [] ∧ (takeFraction cs).1 = []) ∧ AllDigits (takeFraction cs).1 := by
  rw [takeFraction.eq_def]
  split
  · rename_i cs
    refine ⟨['.'], ?_, .inl rfl, allDigits_takeDigits cs⟩
    rw [List.append_assoc, takeDigits_append_eq]
    rfl
  · exact ⟨[], rfl, .inr ⟨rfl, rfl⟩, by simp [AllDigits]⟩

theorem takeFraction_append {point fraction exponent : List Char}
    (hpoint : point = ['.'] ∨ point = [] ∧ fraction = []) (hfraction : AllDigits fraction)
    (hexponent : IsExponent exponent) :
    takeFraction (point ++ fraction ++ exponent) = (fraction, exponent) := by
  obtain rfl | ⟨rfl, rfl⟩ := hpoint
  · exact takeDigits_append hfraction (isDigit_head?_exponent hexponent)
  · -- without a point there is nothing, since an exponent begins with its mark
    obtain rfl | ⟨mark, sign, ds, rfl, rfl | rfl, -⟩ := hexponent
    · rfl
    · rfl
    · rfl

theorem isSome_ofChars?_iff_parts {negative : Bool} :
    (ofChars? negative cs).isSome = true ↔
      ((takeDigits cs).1 ≠ [] ∨ (takeFraction (takeDigits cs).2).1 ≠ []) ∧
        ∃ e, takeExponent? (takeFraction (takeDigits cs).2).2 = some (e, []) := by
  rw [ofChars?]
  dsimp only
  generalize (takeDigits cs).1 = whole
  generalize takeFraction (takeDigits cs).2 = fraction
  by_cases hempty : whole = [] ∧ fraction.1 = []
  · simp [hempty]
  · have hsome : ¬(whole.isEmpty && fraction.1.isEmpty) = true := by simpa using hempty
    rw [if_neg hsome, and_iff_right (not_and_or.mp hempty)]
    rcases takeExponent? fraction.2 with _ | ⟨e, rest⟩
    · simp
    · cases rest <;> simp

/-- **A numeral is read to its end if it is one**, and nothing else is read. -/
theorem isSome_ofChars?_iff {negative : Bool} :
    (ofChars? negative cs).isSome = true ↔ IsDecimal cs := by
  rw [isSome_ofChars?_iff_parts, exists_takeExponent?_iff]
  constructor
  · rintro ⟨hdigits, hexponent⟩
    obtain ⟨point, hcs, hpoint, hfraction⟩ := exists_point (takeDigits cs).2
    refine ⟨_, point, _, _, ?_, allDigits_takeDigits cs, hpoint, hfraction, hdigits, hexponent⟩
    rw [← hcs, takeDigits_append_eq]
  · rintro ⟨whole, point, fraction, exponent, rfl, hwhole, hpoint, hfraction, hdigits, hexponent⟩
    have hrest : ∀ c ∈ (point ++ fraction ++ exponent).head?, c.isDigit = false := by
      obtain rfl | ⟨rfl, rfl⟩ := hpoint
      · rintro _ ⟨⟩
        decide
      · exact isDigit_head?_exponent hexponent
    rw [takeDigits_append hwhole hrest, takeFraction_append hpoint hfraction hexponent]
    exact ⟨hdigits, hexponent⟩

/-- A decimal numeral does not begin with a sign. -/
theorem IsDecimal.head?_ne_sign (h : IsDecimal cs) : ∀ c ∈ cs.head?, c ≠ '-' ∧ c ≠ '+' := by
  obtain ⟨whole, point, fraction, exponent, rfl, hwhole, hpoint, -, hdigits, -⟩ := h
  by_cases hempty : whole = []
  · obtain rfl | ⟨rfl, rfl⟩ := hpoint
    · rw [hempty]
      rintro _ ⟨⟩
      decide
    · exact absurd hdigits (by simp [hempty])
  · exact Numeral.head?_ne_sign hwhole hempty

end Numeral

namespace Number

/-- Whether a text is spelled as a number: an optional sign, and behind it one of the words for
infinity and for what is not a number, in any case, or a decimal numeral. -/
def IsSpelled (s : String) : Prop :=
  ∃ sign body, s.toList = sign ++ body ∧ Numeral.IsSign sign ∧
    (String.ofList (body.map Char.toLower) ∈ ["inf", "infinity", "nan"] ∨ Numeral.IsDecimal body)

theorem isSome_ofText?_iff_body {s : String} :
    (ofText? s).isSome = true ↔
      String.ofList ((Numeral.takeSign s.toList).2.map Char.toLower) ∈ ["inf", "infinity", "nan"] ∨
        Numeral.IsDecimal (Numeral.takeSign s.toList).2 := by
  rw [ofText?, List.mem_cons, List.mem_cons, List.mem_singleton, ← or_assoc]
  dsimp only
  generalize Numeral.takeSign s.toList = p
  split
  · rename_i hinfinity
    exact iff_of_true rfl (.inl (.inl hinfinity))
  · rename_i hinfinity
    split
    · rename_i hnan
      exact iff_of_true rfl (.inl (.inr hnan))
    · rename_i hnan
      rw [Option.isSome_map, Numeral.isSome_ofChars?_iff, or_iff_right (not_or.mpr ⟨hinfinity, hnan⟩)]

/-- **A text reads as a number if it is spelled as one.** -/
theorem isSome_ofText?_iff {s : String} : (ofText? s).isSome = true ↔ IsSpelled s := by
  rw [isSome_ofText?_iff_body]
  constructor
  · intro hbody
    obtain ⟨sign, hsign, hs⟩ := Numeral.exists_sign s.toList
    exact ⟨sign, _, hs, hsign, hbody⟩
  · rintro ⟨sign, body, hs, hsign, hbody⟩
    have hfirst : ∀ c ∈ body.head?, c ≠ '-' ∧ c ≠ '+' := by
      obtain hword | hdecimal := hbody
      · -- none of the words begins with a sign
        intro c hc
        obtain ⟨cs, rfl⟩ := List.head?_eq_some_iff.mp hc
        have hlower : c.toLower = 'i' ∨ c.toLower = 'n' := by
          simp only [List.map_cons, List.mem_cons, List.not_mem_nil, or_false,
            String.ofList_eq] at hword
          obtain h | h | h := hword
          · exact .inl (List.cons.inj h).1
          · exact .inl (List.cons.inj h).1
          · exact .inr (List.cons.inj h).1
        constructor <;> rintro rfl <;> exact absurd hlower (by decide)
      · exact hdecimal.head?_ne_sign
    rwa [hs, Numeral.takeSign_append hsign hfirst]

end Number

end Tabletop
