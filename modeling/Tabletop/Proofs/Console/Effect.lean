import Tabletop.Proofs.Console.Token
import Tabletop.Proofs.Document.Normal

/-!
# Effects at the console

An effect is written `attribute:scope:modifier:value`. A token is cut at its first three colons, so
there is one way at most to take it apart (`CutsInto.unique`), and the value may hold more colons.
There is a way if the token has three colons at all (`exists_cutsInto_iff`).

The faults of a token have an order. Without three colons, or without a name for the attribute, it
is malformed, whatever else is wrong with it. Only then is the scope read, and the modifier after
the scope. A token without a fault is one that some effect is spelled by, and it stands for that
effect alone (`Effect.ofToken_iff_spelling`).
-/

namespace Tabletop

/-! ## Words -/

/-- What is needed is refused exactly if it never comes out right. -/
theorem need_eq_error_iff_forall {α ε : Type} {e e' : ε} {o : Option α} :
    need e o = .error e' ↔ (∀ a, need e o ≠ .ok a) ∧ e' = e := by
  simp only [need_eq_error_iff, Option.eq_none_iff_forall_ne_some, ne_eq, need_eq_ok_iff]

theorem Scope.read_eq_ok_iff {word : String} {s : Scope} : Scope.read word = .ok s ↔ s.word = word :=
  ⟨word_of_read, fun h ↦ h ▸ s.read_word⟩

theorem Scope.read_eq_error_iff {word : String} {e : RuleError} :
    Scope.read word = .error e ↔ (∀ s : Scope, s.word ≠ word) ∧ e = .unsupportedScope word :=
  need_eq_error_iff_forall.trans
    (and_congr_left fun _ ↦ forall_congr' fun _ ↦ not_congr read_eq_ok_iff)

theorem Modifier.read_eq_ok_iff {word : String} {m : Modifier} :
    Modifier.read word = .ok m ↔ m.word = word :=
  ⟨word_of_read, fun h ↦ h ▸ m.read_word⟩

theorem Modifier.read_eq_error_iff {word : String} {e : RuleError} :
    Modifier.read word = .error e ↔
      (∀ m : Modifier, m.word ≠ word) ∧ e = .unsupportedModifier word :=
  need_eq_error_iff_forall.trans
    (and_congr_left fun _ ↦ forall_congr' fun _ ↦ not_congr read_eq_ok_iff)

/-! ## Cutting a token at three colons -/

section Cut

variable {separator : Char} {s : String}

theorem cut?_eq_none_iff : cut? separator s = none ↔ separator ∉ s.toList := by
  constructor
  · intro hnone hmem
    obtain ⟨before, after, hs, hbefore⟩ := List.eq_append_cons_of_mem hmem
    have hcut : cut? separator s = some (String.ofList before, String.ofList after) := by
      rw [cut?_eq_some_iff, String.toList_ofList, String.toList_ofList]
      exact ⟨hs, hbefore⟩
    exact absurd (hnone.symm.trans hcut) (by simp)
  · intro hnot
    refine Option.eq_none_iff_forall_ne_some.mpr ?_
    rintro ⟨a, r⟩ hcut
    apply hnot
    rw [(cut?_eq_some_iff.mp hcut).1]
    exact List.mem_append_right _ List.mem_cons_self

/-- Behind the first separator there are all others. -/
theorem exists_cut? {n : Nat} (h : n + 1 ≤ s.toList.count separator) :
    ∃ a r, cut? separator s = some (a, r) ∧ n ≤ r.toList.count separator := by
  cases hcut : cut? separator s with
  | none =>
    rw [List.count_eq_zero_of_not_mem (cut?_eq_none_iff.mp hcut)] at h
    exact absurd h (by simp)
  | some parts =>
    obtain ⟨a, r⟩ := parts
    refine ⟨a, r, rfl, ?_⟩
    obtain ⟨hs, ha⟩ := cut?_eq_some_iff.mp hcut
    rw [hs, List.count_append, List.count_eq_zero_of_not_mem ha, List.count_cons_self] at h
    omega

end Cut

/-- A token is the text of four parts with colons between them, and only the last part may have
colons in it. -/
structure CutsInto (token attr scope modifier value : String) : Prop where
  /-- The text. -/
  text : token = attr ++ ":" ++ scope ++ ":" ++ modifier ++ ":" ++ value
  /-- No colon in the first part. -/
  attr : ':' ∉ attr.toList
  /-- No colon in the second part. -/
  scope : ':' ∉ scope.toList
  /-- No colon in the third part. -/
  modifier : ':' ∉ modifier.toList

section Parts

variable {token attr scope modifier value : String}

/-- A token is cut one colon after the other. -/
theorem cutsInto_iff :
    CutsInto token attr scope modifier value ↔
      ∃ rest rest', cut? ':' token = some (attr, rest) ∧ cut? ':' rest = some (scope, rest') ∧
        cut? ':' rest' = some (modifier, value) := by
  simp only [cut?_eq_some_iff]
  constructor
  · rintro ⟨rfl, hattr, hscope, hmodifier⟩
    refine ⟨scope ++ ":" ++ modifier ++ ":" ++ value, modifier ++ ":" ++ value, ⟨?_, hattr⟩,
      ⟨?_, hscope⟩, ?_, hmodifier⟩ <;> simp
  · rintro ⟨rest, rest', ⟨htoken, hattr⟩, ⟨hrest, hscope⟩, hrest', hmodifier⟩
    refine ⟨String.toList_injective ?_, hattr, hscope, hmodifier⟩
    simp [htoken, hrest, hrest']

/-- **There is one way at most to take a token apart.** -/
theorem CutsInto.unique {attr' scope' modifier' value' : String}
    (h : CutsInto token attr scope modifier value)
    (h' : CutsInto token attr' scope' modifier' value') :
    attr = attr' ∧ scope = scope' ∧ modifier = modifier' ∧ value = value' := by
  obtain ⟨rest, rest', htoken, hrest, hrest'⟩ := cutsInto_iff.mp h
  obtain ⟨other, other', htoken', hother, hother'⟩ := cutsInto_iff.mp h'
  obtain ⟨rfl, rfl⟩ := Prod.mk.inj (Option.some.inj (htoken.symm.trans htoken'))
  obtain ⟨rfl, rfl⟩ := Prod.mk.inj (Option.some.inj (hrest.symm.trans hother))
  obtain ⟨rfl, rfl⟩ := Prod.mk.inj (Option.some.inj (hrest'.symm.trans hother'))
  exact ⟨rfl, rfl, rfl, rfl⟩

/-- **A token can be taken apart if it has three colons.** -/
theorem exists_cutsInto_iff :
    (∃ attr scope modifier value, CutsInto token attr scope modifier value) ↔
      3 ≤ token.toList.count ':' := by
  constructor
  · rintro ⟨attr, scope, modifier, value, rfl, -, -, -⟩
    simp only [String.toList_append, List.count_append]
    have hcolon : ":".toList.count ':' = 1 := rfl
    omega
  · intro h
    obtain ⟨attr, rest, htoken, h⟩ := exists_cut? h
    obtain ⟨scope, rest', hrest, h⟩ := exists_cut? h
    obtain ⟨modifier, value, hrest', -⟩ := exists_cut? h
    exact ⟨attr, scope, modifier, value, cutsInto_iff.mpr ⟨rest, rest', htoken, hrest, hrest'⟩⟩

theorem effectParts?_eq_some_iff :
    effectParts? token = some (attr, scope, modifier, value) ↔
      CutsInto token attr scope modifier value ∧ attr ≠ "" := by
  rw [cutsInto_iff]
  simp only [effectParts?, bind, Option.bind_eq_some_iff, Prod.exists]
  constructor
  · rintro ⟨a, rest, htoken, s, rest', hrest, m, v, hrest', h⟩
    split at h
    · cases h
    · rename_i hempty
      cases h
      exact ⟨⟨rest, rest', htoken, hrest, hrest'⟩, by simpa using hempty⟩
  · rintro ⟨⟨rest, rest', htoken, hrest, hrest'⟩, hne⟩
    refine ⟨attr, rest, htoken, scope, rest', hrest, modifier, value, hrest', ?_⟩
    rw [if_neg (by simpa using hne)]

/-- When a token is malformed: it has fewer than three colons, or nothing before the first. -/
theorem effectParts?_eq_none_iff :
    effectParts? token = none ↔
      token.toList.count ':' < 3 ∨ ∃ scope modifier value, CutsInto token "" scope modifier value := by
  constructor
  · intro hnone
    by_cases hcount : token.toList.count ':' < 3
    · exact .inl hcount
    · obtain ⟨attr, scope, modifier, value, hcut⟩ := exists_cutsInto_iff.mpr (not_lt.mp hcount)
      refine .inr ⟨scope, modifier, value, ?_⟩
      by_cases hattr : attr = ""
      · rwa [hattr] at hcut
      · exact absurd (hnone.symm.trans (effectParts?_eq_some_iff.mpr ⟨hcut, hattr⟩)) (by simp)
  · intro h
    refine Option.eq_none_iff_forall_ne_some.mpr ?_
    rintro ⟨attr, scope, modifier, value⟩ hsome
    obtain ⟨hcut, hattr⟩ := effectParts?_eq_some_iff.mp hsome
    rcases h with hcount | ⟨scope', modifier', value', hcut'⟩
    · exact absurd (exists_cutsInto_iff.mp ⟨_, _, _, _, hcut⟩) (not_le.mpr hcount)
    · exact hattr (hcut.unique hcut').1

end Parts

/-! ## How effects are spelled -/

/-- The parts by which an effect is spelled. The attribute has a name without colons, and the value
may be any text. -/
structure EffectSpelling where
  /-- The attribute that is changed. -/
  attr : String
  /-- Whom the effect touches. -/
  scope : Scope
  /-- How the value is changed. -/
  modifier : Modifier
  /-- What stands for the amount. -/
  value : String
  /-- The attribute has a name. -/
  attr_ne : attr ≠ ""
  /-- There is no colon in the name. -/
  attr_plain : ':' ∉ attr.toList

namespace EffectSpelling

/-- The token of a spelling. -/
def token (p : EffectSpelling) : String :=
  p.attr ++ ":" ++ p.scope.word ++ ":" ++ p.modifier.word ++ ":" ++ p.value

/-- The effect that is spelled: its amount stands as it is, and there is no condition. -/
def effect (p : EffectSpelling) : Effect :=
  ⟨p.attr, p.scope, p.modifier, .literal (.ofToken p.value), none⟩

theorem cutsInto (p : EffectSpelling) :
    CutsInto p.token p.attr p.scope.word p.modifier.word p.value := by
  refine ⟨rfl, p.attr_plain, ?_, ?_⟩
  · cases p.scope <;> decide
  · cases p.modifier <;> decide

theorem token_injective : Function.Injective token := by
  intro p q h
  obtain ⟨hattr, hscope, hmodifier, hvalue⟩ := p.cutsInto.unique (h ▸ q.cutsInto)
  have hscope : p.scope = q.scope :=
    Except.ok.inj ((Scope.read_word _).symm.trans (Scope.read_eq_ok_iff.mpr hscope.symm))
  have hmodifier : p.modifier = q.modifier :=
    Except.ok.inj ((Modifier.read_word _).symm.trans (Modifier.read_eq_ok_iff.mpr hmodifier.symm))
  cases p
  cases q
  rw [mk.injEq]
  exact ⟨hattr, hscope, hmodifier, hvalue⟩

end EffectSpelling

namespace Effect

variable {token : String} {f : Effect} {err : TokenError}

theorem ofToken_eq_ok_iff :
    Effect.ofToken token = .ok f ↔ ∃ p : EffectSpelling, p.token = token ∧ p.effect = f := by
  simp only [ofToken, bind_eq_ok_iff, need_eq_ok_iff, mapError_eq_ok_iff, pure_eq_ok_iff,
    Prod.exists, effectParts?_eq_some_iff, Scope.read_eq_ok_iff, Modifier.read_eq_ok_iff]
  constructor
  · rintro ⟨attr, _, _, value, ⟨hcut, hattr⟩, scope, rfl, modifier, rfl, rfl⟩
    exact ⟨⟨attr, scope, modifier, value, hattr, hcut.attr⟩, hcut.text.symm, rfl⟩
  · rintro ⟨p, rfl, rfl⟩
    exact ⟨_, _, _, _, ⟨p.cutsInto, p.attr_ne⟩, p.scope, rfl, p.modifier, rfl, rfl⟩

theorem ofToken_eq_error_iff :
    Effect.ofToken token = .error err ↔
      ((token.toList.count ':' < 3 ∨
            ∃ scope modifier value, CutsInto token "" scope modifier value) ∧
          err = .malformed .effect token) ∨
        ∃ attr scope modifier value, CutsInto token attr scope modifier value ∧ attr ≠ "" ∧
          (((∀ s : Scope, s.word ≠ scope) ∧ err = .rule (.unsupportedScope scope)) ∨
            ((∃ s : Scope, s.word = scope) ∧ (∀ m : Modifier, m.word ≠ modifier) ∧
              err = .rule (.unsupportedModifier modifier))) := by
  have hpure (f : Effect) : (pure f : Except TokenError Effect) = .error err ↔ False := by
    simp [pure, Except.pure]
  rw [ofToken, bind_eq_error_iff, need_eq_error_iff, effectParts?_eq_none_iff]
  refine or_congr_right ?_
  -- what follows the parts fails at the scope, or at the modifier behind a scope
  simp only [need_eq_ok_iff, Prod.exists, effectParts?_eq_some_iff, and_assoc, bind_eq_error_iff,
    mapError_eq_error_iff, mapError_eq_ok_iff, Scope.read_eq_error_iff, Modifier.read_eq_error_iff,
    Scope.read_eq_ok_iff, hpure, and_false, exists_false, or_false, exists_and_left,
    exists_and_right, exists_eq_left, eq_comm (b := err)]

/-- **The grammar of effects.** A token is read as an effect if and only if some spelling has it as
its token, and as the effect that is spelled; no other spelling has this token. All other tokens are
refused: as malformed without three colons or without a name for the attribute, otherwise for the
part that is no scope, and otherwise for the part that is no modifier. -/
theorem ofToken_iff_spelling (token : String) :
    (∀ f, Effect.ofToken token = .ok f ↔ ∃ p : EffectSpelling, p.token = token ∧ p.effect = f) ∧
      Function.Injective EffectSpelling.token ∧
      ∀ err, Effect.ofToken token = .error err ↔
        ((token.toList.count ':' < 3 ∨
              ∃ scope modifier value, CutsInto token "" scope modifier value) ∧
            err = .malformed .effect token) ∨
          ∃ attr scope modifier value, CutsInto token attr scope modifier value ∧ attr ≠ "" ∧
            (((∀ s : Scope, s.word ≠ scope) ∧ err = .rule (.unsupportedScope scope)) ∨
              ((∃ s : Scope, s.word = scope) ∧ (∀ m : Modifier, m.word ≠ modifier) ∧
                err = .rule (.unsupportedModifier modifier))) :=
  ⟨fun _ ↦ ofToken_eq_ok_iff, EffectSpelling.token_injective, fun _ ↦ ofToken_eq_error_iff⟩

/-- Neither the scope nor the modifier is one, and the scope counts. -/
example : Effect.ofToken "HP:aoe:/:1:2" = .error (.rule (.unsupportedScope "aoe")) := by
  decide +kernel

end Effect

end Tabletop
