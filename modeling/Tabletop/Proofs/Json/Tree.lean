import Tabletop.Proofs.Json.Token

/-!
# Trees as JSON

A tree that can be written is read back from its text over several lines (`Json.ofText?_pretty`).
It can be written if its integers have sixty-four bits, its other numbers have the form of JSON
numbers, no part is flawed, and it is not nested too deeply (`Json.Legible`).

## Fuel

Every step of the reader stands for a character of the text at least: a value takes one, and an item
or a member begins with a line break. So the length of the text is fuel enough, and the reader is
given twice as much.
-/

namespace Tabletop

namespace Json

open Numeral

/-- Whether a tree can be written and read back, with containers nested up to some depth. -/
inductive Legible : Nat → Json → Prop where
  /-- The literal `null`. -/
  | null {room : Nat} : Legible room null
  /-- A truth value. -/
  | boolean {room : Nat} (b : Bool) : Legible room (boolean b)
  /-- An integer of sixty-four bits. -/
  | integer {room : Nat} {i : Int} : i.natAbs < UInt64.size → Legible room (integer i)
  /-- Any other number, in the form of JSON numbers. -/
  | real {room : Nat} {n : Numeral} : n.Proper → Legible room (real n)
  /-- A string. -/
  | string {room : Nat} (s : String) : Legible room (string s)
  /-- An array. -/
  | array {room : Nat} {items : List Json} :
      (∀ j ∈ items, Legible room j) → Legible (room + 1) (array items)
  /-- An object. -/
  | object {room : Nat} {members : List (String × Json)} :
      (∀ m ∈ members, Legible room m.2) → Legible (room + 1) (object members)

/-! ## The text of a value -/

section Text

variable {level : Nat} {j : Json} {items : List Json}
  {key : String} {members : List (String × Json)}

theorem printPretty_integer (level : Nat) (i : Int) :
    (integer i).printPretty level = (ofInt i).text := rfl

theorem printPretty_real (level : Nat) (n : Numeral) : (real n).printPretty level = n.text := rfl

theorem printPretty_array (h : items ≠ []) : (array items).printPretty level =
    '[' :: (printPrettyItems (level + 1) items ++ (lineBreak level ++ [']'])) := by
  rw [printPretty.eq_2 _ _ h, List.append_assoc, List.cons_append]

theorem printPretty_object (h : members ≠ []) : (object members).printPretty level =
    '\x7b' :: (printPrettyMembers (level + 1) members ++ (lineBreak level ++ ['\x7d'])) := by
  rw [printPretty.eq_4 _ _ h, List.append_assoc, List.cons_append]

theorem printPrettyItems_singleton :
    printPrettyItems level [j] = lineBreak level ++ j.printPretty level := by rw [printPrettyItems]

theorem printPrettyItems_cons (h : items ≠ []) : printPrettyItems level (j :: items) =
    lineBreak level ++ (j.printPretty level ++ ',' :: printPrettyItems level items) := by
  rw [printPrettyItems.eq_3 _ _ _ h, List.append_assoc]

theorem printPrettyMembers_singleton : printPrettyMembers level [(key, j)] =
    lineBreak level ++ (printString key ++ ':' :: ' ' :: j.printPretty level) := by
  rw [printPrettyMembers, List.append_assoc]

theorem printPrettyMembers_cons (h : members ≠ []) :
    printPrettyMembers level ((key, j) :: members) = lineBreak level ++ (printString key ++
      ':' :: ' ' :: (j.printPretty level ++ ',' :: printPrettyMembers level members)) := by
  rw [printPrettyMembers.eq_3 _ _ _ _ h, List.append_assoc, List.append_assoc]
  rfl

theorem length_lineBreak (level : Nat) : (lineBreak level).length = 2 * level + 1 := by
  rw [lineBreak, List.length_cons, List.length_replicate]

end Text

/-! ## Blanks -/

section Blanks

variable {cs rest : List Char} {fuel depth : Nat}

theorem skipSpace_skipSpace (cs : List Char) : skipSpace (skipSpace cs) = skipSpace cs :=
  List.dropWhile_idempotent isSpace cs

theorem skipSpace_cons {c : Char} (h : isSpace c = false) (cs : List Char) :
    skipSpace (c :: cs) = c :: cs :=
  List.dropWhile_cons_of_neg (Bool.eq_false_iff.mp h)

theorem skipSpace_lineBreak (level : Nat) (cs : List Char) :
    skipSpace (lineBreak level ++ cs) = skipSpace cs := by
  refine List.dropWhile_append_of_pos fun c hc ↦ ?_
  rcases List.mem_cons.mp hc with rfl | hc
  · rfl
  · rw [(List.mem_replicate.mp hc).2]
    rfl

theorem ends_cons {c : Char} (h : c.isDigit = false ∧ c ≠ '.' ∧ c ≠ 'e' ∧ c ≠ 'E')
    (cs : List Char) : Ends (c :: cs) := fun _ hc ↦ Option.some.inj hc ▸ h

theorem ends_lineBreak (level : Nat) (cs : List Char) : Ends (lineBreak level ++ cs) :=
  ends_cons (by decide) _

theorem takeValue?_skipSpace : takeValue? fuel depth (skipSpace cs) = takeValue? fuel depth cs := by
  cases fuel with
  | zero => rfl
  | succ fuel => rw [takeValue?, takeValue?, skipSpace_skipSpace]

theorem takeItems?_skipSpace : takeItems? fuel depth (skipSpace cs) = takeItems? fuel depth cs := by
  cases fuel with
  | zero => rfl
  | succ fuel => rw [takeItems?, takeItems?, takeValue?_skipSpace]

theorem takeMembers?_skipSpace :
    takeMembers? fuel depth (skipSpace cs) = takeMembers? fuel depth cs := by
  cases fuel with
  | zero => rfl
  | succ fuel => rw [takeMembers?, takeMembers?, skipSpace_skipSpace]

end Blanks

/-! ## One step of the reader -/

section Steps

variable {fuel depth : Nat} {cs cs' cs'' rest : List Char} {j : Json}

theorem takeValue?_string {s : String}
    (h : skipSpace cs = '"' :: (s.toList.flatMap escapedChar ++ '"' :: rest)) :
    takeValue? (fuel + 1) depth cs = some (string s, rest) := by
  simp only [takeValue?, h, takeString?_escaped]
  rfl

theorem takeValue?_number {c : Char} (h : skipSpace cs = c :: cs')
    (hc : c.isDigit = true ∨ c = '-') :
    takeValue? (fuel + 1) depth cs = takeNumber? (c :: cs') := by
  rw [takeValue?, h]
  split
  case h_7 => rfl
  -- none of the characters that other values begin with begins a number
  all_goals
    rename_i heq
    obtain ⟨rfl, -⟩ := List.cons.inj heq
    exact absurd hc (by decide)

theorem takeValue?_array {items : List Json} (h : skipSpace cs = '[' :: cs')
    (hcs : (skipSpace cs').head? ≠ some ']')
    (hitems : takeItems? fuel (depth + 1) cs' = some (items, rest)) (hdepth : depth < maxDepth) :
    takeValue? (fuel + 1) depth cs = some (array items, rest) := by
  simp only [takeValue?, h]
  split
  · rename_i hclosed
    exact absurd (hclosed ▸ rfl) hcs
  · rw [takeItems?_skipSpace, hitems]
    exact congrArg (fun j ↦ some (j, rest)) (if_pos hdepth)

theorem takeValue?_object {members : List (Option String × Json)} (h : skipSpace cs = '\x7b' :: cs')
    (hcs : (skipSpace cs').head? ≠ some '\x7d')
    (hmembers : takeMembers? fuel (depth + 1) cs' = some (members, rest))
    (hdepth : depth < maxDepth) :
    takeValue? (fuel + 1) depth cs = some (ofMembers members, rest) := by
  simp only [takeValue?, h]
  split
  · rename_i hclosed
    exact absurd (hclosed ▸ rfl) hcs
  · rw [takeMembers?_skipSpace, hmembers]
    exact congrArg (fun j ↦ some (j, rest)) (if_pos hdepth)

theorem takeItems?_last (hvalue : takeValue? fuel depth cs = some (j, cs'))
    (h : skipSpace cs' = ']' :: rest) : takeItems? (fuel + 1) depth cs = some ([j], rest) := by
  simp only [takeItems?, hvalue, Option.bind_eq_bind, Option.bind_some, h]

theorem takeItems?_comma {items : List Json}
    (hvalue : takeValue? fuel depth cs = some (j, ',' :: cs'))
    (hitems : takeItems? fuel depth cs' = some (items, rest)) :
    takeItems? (fuel + 1) depth cs = some (j :: items, rest) := by
  simp only [takeItems?, hvalue, Option.bind_eq_bind, Option.bind_some,
    skipSpace_cons (show isSpace ',' = false from rfl), hitems]

theorem printString_append (s : String) (cs : List Char) :
    printString s ++ cs = '"' :: (s.toList.flatMap escapedChar ++ '"' :: cs) := by
  rw [printString, List.append_assoc]
  rfl

theorem takeMembers?_last {key : String}
    (h : skipSpace cs = printString key ++ ':' :: cs')
    (hvalue : takeValue? fuel depth cs' = some (j, cs''))
    (hclosed : skipSpace cs'' = '\x7d' :: rest) :
    takeMembers? (fuel + 1) depth cs = some ([(some key, j)], rest) := by
  rw [printString_append] at h
  simp only [takeMembers?, h, takeString?_escaped, Option.bind_eq_bind, Option.bind_some,
    skipSpace_cons (show isSpace ':' = false from rfl), hvalue, hclosed]

theorem takeMembers?_comma {key : String} {members : List (Option String × Json)}
    (h : skipSpace cs = printString key ++ ':' :: cs')
    (hvalue : takeValue? fuel depth cs' = some (j, ',' :: cs''))
    (hmembers : takeMembers? fuel depth cs'' = some (members, rest)) :
    takeMembers? (fuel + 1) depth cs = some ((some key, j) :: members, rest) := by
  rw [printString_append] at h
  simp only [takeMembers?, h, takeString?_escaped, Option.bind_eq_bind, Option.bind_some,
    skipSpace_cons (show isSpace ':' = false from rfl), hvalue,
    skipSpace_cons (show isSpace ',' = false from rfl), hmembers]

theorem ofMembers_keys (members : List (String × Json)) :
    ofMembers (members.map fun m ↦ (some m.1, m.2)) = object members := by
  have hkeys : (members.map fun m ↦ (some m.1, m.2)).mapM
      (fun m : Option String × Json ↦ m.1.map (·, m.2)) = some members := by
    induction members with
    | nil => rfl
    | cons m members ih =>
      rw [List.map_cons, List.mapM_cons, ih]
      rfl
  rw [ofMembers, hkeys]

end Steps

/-! ## The first character of a value -/

/-- Whether a text begins like a value: neither with a blank nor with a closing bracket. -/
def Opens (cs : List Char) : Prop := ∃ c ∈ cs.head?, isSpace c = false ∧ c ≠ ']'

theorem Opens.skipSpace_append {cs : List Char} (h : Opens cs) (rest : List Char) :
    skipSpace (cs ++ rest) = cs ++ rest := by
  obtain ⟨c, hc, hspace, -⟩ := h
  obtain ⟨cs, rfl⟩ := List.head?_eq_some_iff.mp hc
  exact skipSpace_cons hspace _

theorem Opens.one_le_length {cs : List Char} (h : Opens cs) : 1 ≤ cs.length := by
  obtain ⟨c, hc, -⟩ := h
  obtain ⟨cs, rfl⟩ := List.head?_eq_some_iff.mp hc
  exact Nat.succ_pos _

theorem head?_printPrettyItems {level : Nat} {items : List Json} (hne : items ≠ [])
    (hopens : ∀ j ∈ items, Opens (j.printPretty level)) (rest : List Char) :
    (skipSpace (printPrettyItems level items ++ rest)).head? ≠ some ']' := by
  obtain ⟨j, items, rfl⟩ := List.exists_cons_of_ne_nil hne
  have hopen := hopens j List.mem_cons_self
  obtain ⟨rest', htext⟩ : ∃ rest', printPrettyItems level (j :: items) ++ rest =
      lineBreak level ++ (j.printPretty level ++ rest') := by
    by_cases hlast : items = []
    · rw [hlast, printPrettyItems_singleton, List.append_assoc]
      exact ⟨_, rfl⟩
    · rw [printPrettyItems_cons hlast, List.append_assoc, List.append_assoc]
      exact ⟨_, rfl⟩
  rw [htext, skipSpace_lineBreak, hopen.skipSpace_append]
  obtain ⟨c, hc, -, hclosing⟩ := hopen
  obtain ⟨cs, hcs⟩ := List.head?_eq_some_iff.mp hc
  rw [hcs]
  exact fun h ↦ hclosing (Option.some.inj h)

theorem head?_printPrettyMembers {level : Nat} {members : List (String × Json)}
    (hne : members ≠ []) (rest : List Char) :
    (skipSpace (printPrettyMembers level members ++ rest)).head? ≠ some '\x7d' := by
  obtain ⟨⟨key, j⟩, members, rfl⟩ := List.exists_cons_of_ne_nil hne
  obtain ⟨rest', htext⟩ : ∃ rest', printPrettyMembers level ((key, j) :: members) ++ rest =
      lineBreak level ++ (printString key ++ rest') := by
    by_cases hlast : members = []
    · rw [hlast, printPrettyMembers_singleton, List.append_assoc, List.append_assoc]
      exact ⟨_, rfl⟩
    · rw [printPrettyMembers_cons hlast, List.append_assoc, List.append_assoc]
      exact ⟨_, rfl⟩
  rw [htext, skipSpace_lineBreak, printString_append,
    skipSpace_cons (show isSpace '"' = false from rfl)]
  exact fun h ↦ absurd (Option.some.inj h) (by decide)

theorem opens_text {n : Numeral} (hne : n.whole ≠ []) (hwhole : ∀ c ∈ n.whole, c.isDigit = true) :
    ∃ c cs, n.text = c :: cs ∧ (c.isDigit = true ∨ c = '-') := by
  obtain ⟨c, ds, hds⟩ := List.exists_cons_of_ne_nil hne
  rw [text_eq, hds]
  split
  · exact ⟨'-', _, rfl, .inr rfl⟩
  · exact ⟨c, _, rfl, .inl (hwhole c (hds ▸ List.mem_cons_self))⟩

theorem opens_of_digit {c : Char} (h : c.isDigit = true ∨ c = '-') (cs : List Char) :
    Opens (c :: cs) := by
  refine ⟨c, rfl, Bool.eq_false_iff.mpr fun hspace ↦ ?_, ?_⟩
  · simp only [isSpace, Bool.or_eq_true, decide_eq_true_eq] at hspace
    rcases hspace with ((rfl | rfl) | rfl) | rfl <;> exact absurd h (by decide)
  · rintro rfl
    exact absurd h (by decide)

theorem Legible.opens {room : Nat} {j : Json} (h : Legible room j) (level : Nat) :
    Opens (j.printPretty level) := by
  cases h with
  | null => exact ⟨'n', rfl, by decide⟩
  | boolean b =>
    cases b with
    | true => exact ⟨'t', rfl, by decide⟩
    | false => exact ⟨'f', rfl, by decide⟩
  | integer hi =>
    obtain ⟨c, cs, htext, hc⟩ := opens_text (n := ofInt _) (digitsOf_ne_nil _)
      fun _ ↦ isDigit_of_mem_digitsOf
    rw [printPretty_integer, htext]
    exact opens_of_digit hc cs
  | real hn =>
    obtain ⟨c, cs, htext, hc⟩ := opens_text hn.whole_ne_nil hn.whole
    rw [printPretty_real, htext]
    exact opens_of_digit hc cs
  | string s => exact ⟨'"', rfl, by decide⟩
  | @array _ items hitems =>
    cases items with
    | nil => exact ⟨'[', rfl, by decide⟩
    | cons j items => exact ⟨'[', rfl, by decide⟩
  | @object _ members hmembers =>
    cases members with
    | nil => exact ⟨'\x7b', rfl, by decide⟩
    | cons m members => exact ⟨'\x7b', rfl, by decide⟩

/-! ## Values -/

/-- Whether a value is read back, behind any blanks and in front of anything that does not go on
with a numeral, given fuel for its length and room for its containers. -/
def IsTaken (room : Nat) (j : Json) : Prop :=
  ∀ ⦃level fuel depth : Nat⦄ ⦃cs rest : List Char⦄, skipSpace cs = j.printPretty level ++ rest →
    Ends rest → (j.printPretty level).length ≤ fuel → depth + room ≤ maxDepth →
      takeValue? fuel depth cs = some (j, rest)

section Values

variable {room fuel depth level closing : Nat} {cs rest : List Char}

/-- The items of an array up to its closing bracket. -/
theorem takeItems?_printPretty {items : List Json} (hne : items ≠ [])
    (h : ∀ j ∈ items, Opens (j.printPretty level) ∧ IsTaken room j)
    (hfuel : (printPrettyItems level items).length ≤ fuel) (hdepth : depth + room ≤ maxDepth) :
    takeItems? fuel depth (printPrettyItems level items ++ (lineBreak closing ++ ']' :: rest)) =
      some (items, rest) := by
  induction items generalizing fuel with
  | nil => exact absurd rfl hne
  | cons j items ih =>
    obtain ⟨⟨hopens, htaken⟩, hitems⟩ := List.forall_mem_cons.mp h
    -- the line break in front of the item is fuel for it
    have hvalue : ∀ {fuel rest}, Ends rest →
        2 * level + 1 + (j.printPretty level).length ≤ fuel + 1 →
        takeValue? fuel depth (lineBreak level ++ (j.printPretty level ++ rest)) = some (j, rest) :=
      fun hrest hlength ↦ htaken (by rw [skipSpace_lineBreak, hopens.skipSpace_append]) hrest
        (by omega) hdepth
    by_cases hlast : items = []
    · rw [hlast, printPrettyItems_singleton] at hfuel ⊢
      rw [List.length_append, length_lineBreak] at hfuel
      obtain ⟨fuel, rfl⟩ := Nat.exists_eq_add_of_le' (by omega : 1 ≤ fuel)
      rw [List.append_assoc]
      exact takeItems?_last (hvalue (ends_lineBreak _ _) hfuel) (skipSpace_lineBreak _ _)
    · rw [printPrettyItems_cons hlast] at hfuel ⊢
      rw [List.length_append, length_lineBreak, List.length_append, List.length_cons] at hfuel
      obtain ⟨fuel, rfl⟩ := Nat.exists_eq_add_of_le' (by omega : 1 ≤ fuel)
      rw [List.append_assoc, List.append_assoc]
      exact takeItems?_comma (hvalue (ends_cons (by decide) _) (by omega))
        (ih hlast hitems (by omega))

/-- The members of an object up to its closing brace. -/
theorem takeMembers?_printPretty {members : List (String × Json)} (hne : members ≠ [])
    (h : ∀ m ∈ members, Opens (m.2.printPretty level) ∧ IsTaken room m.2)
    (hfuel : (printPrettyMembers level members).length ≤ fuel) (hdepth : depth + room ≤ maxDepth) :
    takeMembers? fuel depth
        (printPrettyMembers level members ++ (lineBreak closing ++ '\x7d' :: rest)) =
      some (members.map fun m ↦ (some m.1, m.2), rest) := by
  induction members generalizing fuel with
  | nil => exact absurd rfl hne
  | cons m members ih =>
    obtain ⟨key, j⟩ := m
    obtain ⟨⟨hopens, htaken⟩, hmembers⟩ := List.forall_mem_cons.mp h
    have hvalue : ∀ {fuel rest}, Ends rest → (j.printPretty level).length ≤ fuel →
        takeValue? fuel depth (' ' :: (j.printPretty level ++ rest)) = some (j, rest) :=
      fun hrest hlength ↦ htaken (hopens.skipSpace_append _) hrest hlength hdepth
    -- a key is a string, so the blanks before it end at its quote
    have hkey : ∀ cs, skipSpace (lineBreak level ++ (printString key ++ cs)) =
        printString key ++ cs := fun cs ↦ by
      rw [skipSpace_lineBreak, printString_append]
      rfl
    by_cases hlast : members = []
    · rw [hlast, printPrettyMembers_singleton] at hfuel ⊢
      rw [List.length_append, length_lineBreak, List.length_append, List.length_cons,
        List.length_cons] at hfuel
      obtain ⟨fuel, rfl⟩ := Nat.exists_eq_add_of_le' (by omega : 1 ≤ fuel)
      rw [List.append_assoc, List.append_assoc]
      exact takeMembers?_last (hkey _) (hvalue (ends_lineBreak _ _) (by omega))
        (skipSpace_lineBreak _ _)
    · rw [printPrettyMembers_cons hlast] at hfuel ⊢
      rw [List.length_append, length_lineBreak, List.length_append, List.length_cons,
        List.length_cons, List.length_append, List.length_cons] at hfuel
      obtain ⟨fuel, rfl⟩ := Nat.exists_eq_add_of_le' (by omega : 1 ≤ fuel)
      rw [List.append_assoc, List.append_assoc, List.cons_append, List.cons_append,
        List.append_assoc]
      exact takeMembers?_comma (hkey _) (hvalue (ends_cons (by decide) _) (by omega))
        (ih hlast hmembers (by omega))

/-- A value takes a character at least, so its fuel is not empty. -/
theorem IsTaken.of_succ {j : Json} (hopens : ∀ level, Opens (j.printPretty level))
    (h : ∀ {level fuel depth : Nat} {cs rest : List Char},
      skipSpace cs = j.printPretty level ++ rest → Ends rest →
        (j.printPretty level).length ≤ fuel + 1 → depth + room ≤ maxDepth →
          takeValue? (fuel + 1) depth cs = some (j, rest)) : IsTaken room j := by
  intro level fuel depth cs rest hcs hrest hfuel hdepth
  obtain ⟨fuel, rfl⟩ := Nat.exists_eq_add_of_le' ((hopens level).one_le_length.trans hfuel)
  exact h hcs hrest hfuel hdepth

/-- **One value.** -/
theorem Legible.isTaken {j : Json} (h : Legible room j) : IsTaken room j := by
  induction h with
  | null =>
    refine .of_succ (@null 0).opens fun hcs _ _ _ ↦ ?_
    rw [takeValue?, hcs]
    rfl
  | boolean b =>
    refine .of_succ (@boolean 0 b).opens fun hcs _ _ _ ↦ ?_
    rw [takeValue?, hcs]
    cases b <;> rfl
  | integer hi =>
    refine .of_succ (@integer 0 _ hi).opens fun hcs hrest _ _ ↦ ?_
    obtain ⟨c, cs, htext, hc⟩ := opens_text (n := ofInt _) (digitsOf_ne_nil _)
      fun _ ↦ isDigit_of_mem_digitsOf
    rw [printPretty_integer, htext] at hcs
    rw [takeValue?_number hcs hc, ← takeNumber?_integer hi hrest, htext]
    rfl
  | real hn =>
    refine .of_succ (@real 0 _ hn).opens fun hcs hrest _ _ ↦ ?_
    obtain ⟨c, cs, htext, hc⟩ := opens_text hn.whole_ne_nil hn.whole
    rw [printPretty_real, htext] at hcs
    rw [takeValue?_number hcs hc, ← takeNumber?_real hn hrest, htext]
    rfl
  | string s =>
    refine .of_succ (@string 0 s).opens fun hcs _ _ _ ↦ ?_
    exact takeValue?_string (hcs.trans (printString_append s _))
  | @array room items hitems ih =>
    refine .of_succ (array hitems).opens ?_
    intro level fuel depth cs rest hcs hrest hfuel hdepth
    by_cases hempty : items = []
    · -- without items the brackets stand side by side
      rw [hempty] at hcs ⊢
      rw [takeValue?, hcs]
      exact congrArg (fun j ↦ some (j, rest)) (if_pos (by omega))
    · rw [printPretty_array hempty] at hcs hfuel
      rw [List.length_cons, List.length_append] at hfuel
      rw [List.cons_append, List.append_assoc, List.append_assoc] at hcs
      -- the opening bracket is what this step takes, and the rest is left for the items
      have hopens : ∀ j ∈ items, Opens (j.printPretty (level + 1)) :=
        fun j hj ↦ (hitems j hj).opens _
      exact takeValue?_array hcs (head?_printPrettyItems hempty hopens _)
        (takeItems?_printPretty hempty (fun j hj ↦ ⟨hopens j hj, ih j hj⟩) (by omega) (by omega))
        (by omega)
  | @object room members hmembers ih =>
    refine .of_succ (object hmembers).opens ?_
    intro level fuel depth cs rest hcs hrest hfuel hdepth
    by_cases hempty : members = []
    · rw [hempty] at hcs ⊢
      rw [takeValue?, hcs]
      exact congrArg (fun j ↦ some (j, rest)) (if_pos (by omega))
    · rw [printPretty_object hempty] at hcs hfuel
      rw [List.length_cons, List.length_append] at hfuel
      rw [List.cons_append, List.append_assoc, List.append_assoc] at hcs
      rw [← ofMembers_keys]
      exact takeValue?_object hcs (head?_printPrettyMembers hempty _)
        (takeMembers?_printPretty hempty (fun m hm ↦ ⟨(hmembers m hm).opens _, ih m hm⟩)
          (by omega) (by omega))
        (by omega)

end Values

/-- **Trees are read back.** -/
theorem ofText?_pretty {j : Json} (h : Legible maxDepth j) : ofText? j.pretty = some j := by
  have hskip : skipSpace (j.printPretty 0) = j.printPretty 0 ++ [] := by
    rw [← (h.opens 0).skipSpace_append, List.append_nil]
  -- the text as a whole is the value and nothing behind it
  have htaken : takeValue? (2 * (j.printPretty 0).length + 1) 0 (j.printPretty 0) = some (j, []) :=
    h.isTaken hskip (fun c hc ↦ absurd hc (Option.not_mem_none c)) (by omega) (by omega)
  rw [ofText?, pretty, String.toList_ofList]
  simp only [htaken, Option.bind_eq_bind, Option.bind_some]
  rfl

end Json

end Tabletop
