import Tabletop.Console.Token
import Tabletop.Proofs.Number.Spelling
import Tabletop.Proofs.RuleSet.Make
import Tabletop.Proofs.RuleSet.Operation

/-!
# Values of an entity at the console

A token `attribute=value` is cut at its first equals sign, so every text can stand behind it
(`cut?_eq_some_iff`). What is cut off there is read without a look at the attribute: it is a truth
value or a number if it is spelled like one, and a text otherwise. The kind that is recorded with it
is the one of the attribute.

For an attribute that holds texts the two need not agree. A text that is spelled like a number comes
out as that number, recorded as a text, and such a slot is refused when the entity is defined. So a
console can give texts to an entity, but not `007`, `true` or `NaN` (`entity_of_token`).
-/

namespace Tabletop

/-! ## Cutting a text -/

/-- **A text is cut at the first separator.** -/
theorem cut?_eq_some_iff {separator : Char} {s a r : String} :
    cut? separator s = some (a, r) ↔
      s.toList = a.toList ++ separator :: r.toList ∧ separator ∉ a.toList := by
  constructor
  · intro h
    have hsplit := List.takeWhile_append_dropWhile (p := (· != separator)) (l := s.toList)
    have hbefore : separator ∉ s.toList.takeWhile (· != separator) := fun hmem ↦
      absurd (List.mem_takeWhile_imp hmem) (by simp)
    rw [cut?] at h
    split at h
    · exact absurd h (by simp)
    · rename_i c rest hdrop
      obtain ⟨rfl, rfl⟩ := Prod.mk.inj (Option.some.inj h)
      have hc : c = separator := by
        have := List.head_dropWhile_not (p := (· != separator)) (l := s.toList) (by simp [hdrop])
        simpa [hdrop] using this
      rw [hdrop, hc] at hsplit
      simpa [hsplit] using hbefore
  · rintro ⟨hs, ha⟩
    have hbefore : ∀ c ∈ a.toList, (c != separator) = true := by
      rintro c hc
      rw [bne_iff_ne]
      rintro rfl
      exact ha hc
    rw [cut?, hs, List.dropWhile_append_of_pos hbefore, List.takeWhile_append_of_pos hbefore]
    simp

/-! ## Values by their spelling -/

/-- **What is not spelled like anything else is a text**, as it stands. -/
theorem Value.ofToken_eq_text_iff {r : String} :
    Value.ofToken r = .text r ↔ r ≠ "true" ∧ r ≠ "false" ∧ ¬Number.IsSpelled r := by
  rw [ofToken, ← Number.isSome_ofText?_iff]
  by_cases htrue : r = "true"
  · simp [htrue]
  · by_cases hfalse : r = "false"
    · simp [hfalse]
    · cases Number.ofText? r <;> simp [htrue, hfalse]

/-- A token is read as the text that it is or as no text at all. -/
theorem Value.shape_ofToken_eq_text_iff {r : String} :
    (Value.ofToken r).shape = .text ↔ Value.ofToken r = .text r := by
  rw [ofToken]
  split
  · simp [shape]
  · split
    · simp [shape]
    · cases Number.ofText? r <;> simp [shape]

theorem Kind.accepts_text_iff {v : Value} : Kind.text.accepts v = true ↔ v.shape = .text := by
  cases v <;> simp [accepts, Value.shape, isNumeric]

namespace RuleSet

variable {w : RuleSet} {a name : String} {d : AttributeDef} {s : Slot}

/-! ## One value -/

/-- A token with an equals sign is a value, unless it begins with a plus sign. It is recorded with
the kind that its attribute is defined with. -/
theorem entityPartsOfTokens_slot (ha : w.attributes.get? a = some d) (hplain : '=' ∉ a.toList)
    (hfirst : a.toList.head? ≠ some '+') (r : String) :
    w.entityPartsOfTokens [a ++ "=" ++ r] = .ok ([⟨a, d.kind, .ofToken r⟩], []) := by
  have hlist : (a ++ "=" ++ r).toList = a.toList ++ '=' :: r.toList := by
    rw [String.toList_append, String.toList_append, List.append_assoc]
    rfl
  have hcut : cut? '=' (a ++ "=" ++ r) = some (a, r) := cut?_eq_some_iff.mpr ⟨hlist, hplain⟩
  have hslot : w.slotOfToken (a ++ "=" ++ r) = .ok ⟨a, d.kind, .ofToken r⟩ := by
    rw [slotOfToken, hcut]
    change Except.ok (Slot.mk a (((w.attributes.get? a).map AttributeDef.kind).getD _) _) = _
    rw [ha]
    rfl
  have hpart : w.entityPartOfToken (a ++ "=" ++ r) = .ok (.slot ⟨a, d.kind, .ofToken r⟩) := by
    rw [entityPartOfToken]
    split
    · rename_i action hplus
      rw [hlist] at hplus
      cases hchars : a.toList with
      | nil => exact absurd (List.cons.inj (hchars ▸ hplus)).1 (by decide)
      | cons c cs =>
        rw [hchars, List.cons_append] at hplus
        exact absurd (congrArg List.head? hchars) ((List.cons.inj hplus).1 ▸ hfirst)
    · rw [hslot]
      rfl
  rw [entityPartsOfTokens, List.mapM_cons, hpart]
  rfl

/-- **An entity with a value that its attribute accepts** is put at the end of its table. -/
theorem perform_defineEntity_of_accepts (hname : name ∉ w.entities.names)
    (hd : w.attributes.get? s.attr = some d) (haccepts : d.kind.accepts s.value = true)
    (hfinite : s.value.isFinite = true) :
    w.perform (defineEntity name [s] []) =
      (.ok ⟨name, [{ s with kind := d.kind }], []⟩,
        { w with entities := w.entities.push ⟨name, [{ s with kind := d.kind }], []⟩ }) := by
  have hdefined : w.defined s.attr = .ok d := defined_eq_ok_iff.mpr hd
  have hslot : w.checkSlot [] s = .ok [{ s with kind := d.kind }] :=
    bind_eq_ok_iff.mpr ⟨d, hdefined, check_bind_eq_ok_iff.mpr ⟨require_eq_ok_iff.mpr haccepts,
      check_bind_eq_ok_iff.mpr ⟨rfl,
        check_bind_eq_ok_iff.mpr ⟨Value.ensureFinite_eq_ok_iff.mpr hfinite, rfl⟩⟩⟩⟩
  have hmake : w.makeEntity name [s] [] = .ok ⟨name, [{ s with kind := d.kind }], []⟩ := by
    rw [makeEntity, checkSlots, List.foldlM_cons, hslot]
    rfl
  have hdefine := (Table.define_eq_ok_iff fun _ ↦ name_of_makeEntity).mpr ⟨hmake, hname, rfl⟩
  exact (perform_defineEntity w name [s] []).trans (written_eq_ok_iff.mpr ⟨_, hdefine, rfl⟩)

/-- An entity with a value that its attribute does not accept is refused, whether the value is
finite or not. -/
theorem perform_defineEntity_of_not_accepts (hname : name ∉ w.entities.names)
    (hd : w.attributes.get? s.attr = some d) (haccepts : d.kind.accepts s.value = false) :
    w.perform (defineEntity name [s] []) =
      (.error (.typeMismatch (.slot s.value.shape d.name d.kind)), w) := by
  have hdefined : w.defined s.attr = .ok d := defined_eq_ok_iff.mpr hd
  have hvacant : w.entities.ensureVacant name = .ok () := Table.ensureVacant_eq_ok_iff.mpr hname
  have hslot : w.checkSlot [] s = .error (.typeMismatch (.slot s.value.shape d.name d.kind)) :=
    bind_eq_error_iff.mpr (.inr ⟨d, hdefined,
      bind_eq_error_iff.mpr (.inl (require_eq_error_iff.mpr ⟨haccepts, rfl⟩))⟩)
  have hmake : w.makeEntity name [s] [] =
      .error (.typeMismatch (.slot s.value.shape d.name d.kind)) := by
    rw [makeEntity, checkSlots, List.foldlM_cons, hslot]
    rfl
  rw [perform_defineEntity, hmake, Table.define, hvacant]
  rfl

/-- **Texts of an entity at the console.** Behind an attribute that holds texts a token is read
without an error, and the kind of the attribute is recorded. What the token stands for is that text
unless the text is a truth value or spelled like a number, and then the kind does not accept it.
Accordingly the entity with this value is defined and holds the text, or it is refused and nothing
changes. -/
theorem entity_of_token (ha : w.attributes.get? a = some ⟨a, .text⟩) (hplain : '=' ∉ a.toList)
    (hfirst : a.toList.head? ≠ some '+') (hname : name ∉ w.entities.names) (r : String) :
    w.entityPartsOfTokens [a ++ "=" ++ r] = .ok ([⟨a, .text, .ofToken r⟩], []) ∧
      (Kind.text.accepts (.ofToken r) = true ↔ Value.ofToken r = .text r) ∧
      (Value.ofToken r = .text r ↔ r ≠ "true" ∧ r ≠ "false" ∧ ¬Number.IsSpelled r) ∧
      w.perform (defineEntity name [⟨a, .text, .ofToken r⟩] []) =
        if Value.ofToken r = .text r then
          (.ok ⟨name, [⟨a, .text, .text r⟩], []⟩,
            { w with entities := w.entities.push ⟨name, [⟨a, .text, .text r⟩], []⟩ })
        else (.error (.typeMismatch (.slot (Value.ofToken r).shape a .text)), w) := by
  have haccepts : Kind.text.accepts (.ofToken r) = true ↔ Value.ofToken r = .text r :=
    Kind.accepts_text_iff.trans Value.shape_ofToken_eq_text_iff
  refine ⟨entityPartsOfTokens_slot ha hplain hfirst r, haccepts, Value.ofToken_eq_text_iff, ?_⟩
  split
  · rename_i htext
    rw [htext]
    exact perform_defineEntity_of_accepts (s := ⟨a, .text, .text r⟩) hname ha rfl rfl
  · rename_i hother
    have hrefuses : Kind.text.accepts (.ofToken r) = false :=
      Bool.eq_false_iff.mpr fun hyes ↦ hother (haccepts.mp hyes)
    exact perform_defineEntity_of_not_accepts (s := ⟨a, .text, .ofToken r⟩) hname ha hrefuses

/-- An office where everyone has a code, which is a text. -/
def office : RuleSet := [.defineAttribute "code" .text].foldl after (.empty "office")

theorem entity_of_token_office :
    (office.attributes.get? "code" = some ⟨"code", .text⟩ ∧ '=' ∉ "code".toList ∧
        "code".toList.head? ≠ some '+' ∧ "Bond" ∉ office.entities.names) ∧
      office.entityPartsOfTokens ["code=0x07"] = .ok ([⟨"code", .text, .text "0x07"⟩], []) ∧
      ¬Number.IsSpelled "0x07" ∧
      office.perform (defineEntity "Bond" [⟨"code", .text, .text "0x07"⟩] []) =
        (.ok ⟨"Bond", [⟨"code", .text, .text "0x07"⟩], []⟩,
          { office with
            entities := office.entities.push ⟨"Bond", [⟨"code", .text, .text "0x07"⟩], []⟩ }) := by
  have ha : office.attributes.get? "code" = some ⟨"code", .text⟩ := by decide +kernel
  have hname : "Bond" ∉ office.entities.names := by decide +kernel
  have htext : Value.ofToken "0x07" = .text "0x07" := by decide +kernel
  obtain ⟨hparts, -, hspelled, hdefine⟩ :=
    entity_of_token ha (by decide) (by decide) hname "0x07"
  rw [htext] at hparts hdefine
  exact ⟨⟨ha, by decide, by decide, hname⟩, hparts, (hspelled.mp htext).2.2,
    hdefine.trans (if_pos rfl)⟩

/-- At the office the code `007` is read as the number seven. It is recorded as a text, which it is
not, and so Bond is refused. -/
theorem entityPartsOfTokens_office :
    (office.attributes.get? "code" = some ⟨"code", .text⟩ ∧ '=' ∉ "code".toList ∧
        "code".toList.head? ≠ some '+' ∧ "Bond" ∉ office.entities.names) ∧
      office.entityPartsOfTokens ["code=007"] =
        .ok ([⟨"code", .text, .number (.ofInt 7)⟩], []) ∧
      Kind.text.accepts (.number (.ofInt 7)) = false ∧
      office.perform (defineEntity "Bond" [⟨"code", .text, .number (.ofInt 7)⟩] []) =
        (.error (.typeMismatch (.slot .number "code" .text)), office) := by
  refine ⟨⟨?_, ?_, ?_, ?_⟩, ?_, ?_, ?_⟩ <;> decide +kernel

end RuleSet

end Tabletop
