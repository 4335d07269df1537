import Mathlib
import Tabletop.Rows

/-!
# Chains of checks

Definitions and uses of rules are checked step by step in `Except`, and the first fault ends the
chain. Here is when such a chain succeeds: a sequence if both parts do, a look-up if there is
something to find, a check over a list if every member passes; and at which step it fails if it
does. Proofs about operations take their success and their failure apart with these lemmas and never
open the monad.

Two chains of different steps are compared with `Agree`: they fail with one and the same error, or
both succeed and their results are related. Chains agree when they agree step by step. Chains that
meet their members in another order may fail at another one, so there the errors are not compared
(`Together`).
-/

namespace Tabletop

variable {ε α β γ : Type}

/-! ## Single steps -/

theorem pure_eq_ok_iff {a b : α} : (pure a : Except ε α) = .ok b ↔ a = b := by
  constructor
  · rintro ⟨⟩
    rfl
  · rintro rfl
    rfl

theorem bind_eq_ok_iff {x : Except ε α} {f : α → Except ε β} {b : β} :
    (x >>= f) = .ok b ↔ ∃ a, x = .ok a ∧ f a = .ok b := by
  cases x with
  | error e => simp [bind, Except.bind]
  | ok a => simp [bind, Except.bind]

/-- A check that yields nothing, and what comes after it. -/
theorem check_bind_eq_ok_iff {x : Except ε Unit} {f : Unit → Except ε β} {b : β} :
    (x >>= f) = .ok b ↔ x = .ok () ∧ f () = .ok b := by
  rw [bind_eq_ok_iff]
  exact ⟨fun ⟨_, hx, hf⟩ ↦ ⟨hx, hf⟩, fun ⟨hx, hf⟩ ↦ ⟨(), hx, hf⟩⟩

theorem map_eq_ok_iff {x : Except ε α} {f : α → β} {b : β} :
    f <$> x = .ok b ↔ ∃ a, x = .ok a ∧ f a = b := by
  cases x with
  | error e => simp [Functor.map, Except.map]
  | ok a => simp [Functor.map, Except.map]

theorem except_map_eq_ok_iff {x : Except ε α} {f : α → β} {b : β} :
    x.map f = .ok b ↔ ∃ a, x = .ok a ∧ f a = b :=
  map_eq_ok_iff

theorem discard_eq_ok_iff {x : Except ε α} {u : Unit} :
    discard x = .ok u ↔ ∃ a, x = .ok a := by
  change (fun _ ↦ ()) <$> x = .ok u ↔ _
  rw [map_eq_ok_iff]
  simp

theorem mapError_eq_ok_iff {x : Except ε α} {f : ε → γ} {a : α} :
    x.mapError f = .ok a ↔ x = .ok a := by
  cases x with
  | error e => simp [Except.mapError]
  | ok a => simp [Except.mapError]

@[simp] theorem need_eq_ok_iff {e : ε} {o : Option α} {a : α} :
    need e o = .ok a ↔ o = some a := by
  cases o with
  | none => simp [need]
  | some b => simp [need]

@[simp] theorem require_eq_ok_iff {e : ε} {c : Bool} {u : Unit} :
    require e c = .ok u ↔ c = true := by
  cases c with
  | false => simp [require]
  | true => simp [require]

/-! ## Steps over a list -/

theorem forM_eq_ok_iff {f : α → Except ε Unit} {as : List α} {u : Unit} :
    as.forM f = .ok u ↔ ∀ a ∈ as, f a = .ok () := by
  induction as with
  | nil => exact ⟨fun _ a h ↦ absurd h List.not_mem_nil, fun _ ↦ rfl⟩
  | cons a as ih =>
    have hstep : (a :: as).forM f = (f a >>= fun _ ↦ as.forM f) := rfl
    rw [hstep, bind_eq_ok_iff, List.forall_mem_cons]
    constructor
    · rintro ⟨⟨⟩, ha, has⟩
      exact ⟨ha, ih.mp has⟩
    · rintro ⟨ha, has⟩
      exact ⟨(), ha, ih.mpr has⟩

theorem mapM_eq_ok_iff {f : α → Except ε β} {as : List α} {bs : List β} :
    as.mapM f = .ok bs ↔ List.Forall₂ (fun a b ↦ f a = .ok b) as bs := by
  induction as generalizing bs with
  | nil => rw [List.mapM_nil, pure_eq_ok_iff, List.forall₂_nil_left_iff, eq_comm]
  | cons a as ih =>
    rw [List.mapM_cons, bind_eq_ok_iff, List.forall₂_cons_left_iff]
    constructor
    · rintro ⟨b, hb, h⟩
      obtain ⟨bs', hbs, h⟩ := bind_eq_ok_iff.mp h
      exact ⟨b, bs', hb, ih.mp hbs, (pure_eq_ok_iff.mp h).symm⟩
    · rintro ⟨b, bs', hb, hbs, rfl⟩
      exact ⟨b, hb, bind_eq_ok_iff.mpr ⟨bs', ih.mpr hbs, rfl⟩⟩

theorem mapM_cons_eq_ok_iff {f : α → Except ε β} {a : α} {as : List α} {bs : List β} :
    (a :: as).mapM f = .ok bs ↔ ∃ b bs', f a = .ok b ∧ as.mapM f = .ok bs' ∧ bs = b :: bs' := by
  rw [mapM_eq_ok_iff, List.forall₂_cons_left_iff]
  simp only [mapM_eq_ok_iff]

/-- What is known of the result of each member is known of all results. -/
theorem forall_mem_of_mapM {f : α → Except ε β} {P : β → Prop} {as : List α} {bs : List β}
    (hf : ∀ a b, f a = .ok b → P b) (h : as.mapM f = .ok bs) : ∀ b ∈ bs, P b := by
  have hall := mapM_eq_ok_iff.mp h
  clear h
  induction hall with
  | nil => exact fun b hb ↦ absurd hb List.not_mem_nil
  | cons hab _ ih => exact List.forall_mem_cons.mpr ⟨hf _ _ hab, ih⟩

/-- Members that were written down are read back. -/
theorem mapM_map_of_read {write : β → α} {read : α → Except ε β} {bs : List β}
    (h : ∀ b ∈ bs, read (write b) = .ok b) : (bs.map write).mapM read = .ok bs := by
  rw [mapM_eq_ok_iff, List.forall₂_map_left_iff, List.forall₂_same]
  exact h

/-- A member of the results is the result of the member in its place. -/
theorem getElem?_of_mapM {f : α → Except ε β} {as : List α} {bs : List β} (h : as.mapM f = .ok bs)
    (i : Nat) : bs[i]? = as[i]?.bind fun a ↦ (f a).toOption := by
  have hall := mapM_eq_ok_iff.mp h
  clear h
  induction hall generalizing i with
  | nil => rfl
  | cons hab _ ih =>
    cases i with
    | zero => simp [hab, Except.toOption]
    | succ i => simpa using ih i

/-- Checks that do the same to each member do the same to all. -/
theorem mapM_congr {f g : α → Except ε β} {as : List α} (h : ∀ a ∈ as, f a = g a) :
    as.mapM f = as.mapM g := by
  induction as with
  | nil => rfl
  | cons a as ih =>
    obtain ⟨ha, has⟩ := List.forall_mem_cons.mp h
    rw [List.mapM_cons, List.mapM_cons, ha, ih has]

/-- Members in another order yield the same results, in that order. -/
theorem exists_perm_of_mapM {f : α → Except ε β} {as as' : List α} {bs : List β}
    (has : as.Perm as') (h : as.mapM f = .ok bs) : ∃ bs', as'.mapM f = .ok bs' ∧ bs.Perm bs' := by
  obtain ⟨bs', hall, hbs⟩ := List.perm_comp_forall₂ has.symm (mapM_eq_ok_iff.mp h)
  exact ⟨bs', mapM_eq_ok_iff.mpr hall, hbs.symm⟩

/-- What a step keeps, a run of steps keeps. -/
theorem foldlM_induct {f : β → α → Except ε β} {P : β → Prop} {as : List α} {b b' : β}
    (hb : P b) (hstep : ∀ a ∈ as, ∀ b b', P b → f b a = .ok b' → P b')
    (h : as.foldlM f b = .ok b') : P b' := by
  induction as generalizing b with
  | nil =>
    rw [List.foldlM_nil, pure_eq_ok_iff] at h
    exact h ▸ hb
  | cons a as ih =>
    rw [List.foldlM_cons, bind_eq_ok_iff] at h
    obtain ⟨b₁, hb₁, h⟩ := h
    exact ih (hstep a List.mem_cons_self b b₁ hb hb₁)
      (fun a' ha' ↦ hstep a' (List.mem_cons_of_mem a ha')) h

/-! ## Steps over what may be missing -/

theorem option_forM_eq_ok_iff {f : α → Except ε Unit} {o : Option α} {u : Unit} :
    o.forM f = .ok u ↔ ∀ a ∈ o, f a = .ok () := by
  cases o with
  | none => exact ⟨fun _ a h ↦ absurd h (Option.not_mem_none a), fun _ ↦ rfl⟩
  | some a => simp [Option.forM]

theorem option_mapM_eq_ok_iff {f : α → Except ε β} {o : Option α} {o' : Option β} :
    o.mapM f = .ok o' ↔ Option.Rel (fun a b ↦ f a = .ok b) o o' := by
  cases o with
  | none =>
    rw [Option.mapM_none, pure_eq_ok_iff]
    constructor
    · rintro rfl
      exact .none
    · rintro ⟨⟩
      rfl
  | some a =>
    rw [Option.mapM_some, map_eq_ok_iff]
    constructor
    · rintro ⟨b, hb, rfl⟩
      exact .some hb
    · rintro (⟨hb⟩ | _)
      exact ⟨_, hb, rfl⟩

/-! ## Chains that fail

A chain fails at one of its steps, with the error of that step. -/

theorem bind_eq_error_iff {x : Except ε α} {f : α → Except ε β} {e : ε} :
    (x >>= f) = .error e ↔ x = .error e ∨ ∃ a, x = .ok a ∧ f a = .error e := by
  cases x with
  | error e' => simp [bind, Except.bind]
  | ok a => simp [bind, Except.bind]

theorem except_map_eq_error_iff {x : Except ε α} {f : α → β} {e : ε} :
    x.map f = .error e ↔ x = .error e := by
  cases x with
  | error e' => simp [Except.map]
  | ok a => simp [Except.map]

theorem discard_eq_error_iff {x : Except ε α} {e : ε} : discard x = .error e ↔ x = .error e :=
  except_map_eq_error_iff

theorem mapError_eq_error_iff {x : Except ε α} {f : ε → γ} {e : γ} :
    x.mapError f = .error e ↔ ∃ e', x = .error e' ∧ f e' = e := by
  cases x with
  | error e' => simp [Except.mapError]
  | ok a => simp [Except.mapError]

@[simp] theorem need_eq_error_iff {e e' : ε} {o : Option α} :
    need e o = .error e' ↔ o = none ∧ e' = e := by
  cases o with
  | none => simp [need, eq_comm]
  | some a => simp [need]

@[simp] theorem require_eq_error_iff {e e' : ε} {c : Bool} :
    require e c = .error e' ↔ c = false ∧ e' = e := by
  cases c with
  | false => simp [require, eq_comm]
  | true => simp [require]

theorem exists_error_of_forM {f : α → Except ε Unit} {as : List α} {e : ε}
    (h : as.forM f = .error e) : ∃ a ∈ as, f a = .error e := by
  induction as with
  | nil => exact absurd h (by simp [pure, Except.pure])
  | cons a as ih =>
    have hstep : (a :: as).forM f = (f a >>= fun _ ↦ as.forM f) := rfl
    rw [hstep, bind_eq_error_iff] at h
    obtain ha | ⟨_, -, has⟩ := h
    · exact ⟨a, List.mem_cons_self, ha⟩
    · obtain ⟨b, hb, he⟩ := ih has
      exact ⟨b, List.mem_cons_of_mem a hb, he⟩

theorem exists_error_of_mapM {f : α → Except ε β} {as : List α} {e : ε}
    (h : as.mapM f = .error e) : ∃ a ∈ as, f a = .error e := by
  induction as with
  | nil => exact absurd h (by simp [pure, Except.pure])
  | cons a as ih =>
    rw [List.mapM_cons, bind_eq_error_iff] at h
    obtain ha | ⟨b, -, h⟩ := h
    · exact ⟨a, List.mem_cons_self, ha⟩
    · obtain has | ⟨bs, -, h⟩ := bind_eq_error_iff.mp h
      · obtain ⟨a', ha', he⟩ := ih has
        exact ⟨a', List.mem_cons_of_mem a ha', he⟩
      · exact absurd h (by simp [pure, Except.pure])

theorem exists_error_of_option_mapM {f : α → Except ε β} {o : Option α} {e : ε}
    (h : o.mapM f = .error e) : ∃ a ∈ o, f a = .error e := by
  cases o with
  | none => exact absurd h (by simp [pure, Except.pure])
  | some a =>
    rw [Option.mapM_some] at h
    exact ⟨a, rfl, except_map_eq_error_iff.mp h⟩

/-- A run of steps fails at one of them, in a state that the steps before it have led to. -/
theorem exists_error_of_foldlM {f : β → α → Except ε β} {P : β → Prop} {as : List α} {b : β} {e : ε}
    (hb : P b) (hstep : ∀ a ∈ as, ∀ b b', P b → f b a = .ok b' → P b')
    (h : as.foldlM f b = .error e) : ∃ a ∈ as, ∃ b, P b ∧ f b a = .error e := by
  induction as generalizing b with
  | nil => exact absurd h (by simp [pure, Except.pure])
  | cons a as ih =>
    rw [List.foldlM_cons, bind_eq_error_iff] at h
    obtain ha | ⟨b₁, hb₁, h⟩ := h
    · exact ⟨a, List.mem_cons_self, b, hb, ha⟩
    · obtain ⟨a', ha', b', hb', he⟩ := ih (hstep a List.mem_cons_self b b₁ hb hb₁)
        (fun a' ha' ↦ hstep a' (List.mem_cons_of_mem a ha')) h
      exact ⟨a', List.mem_cons_of_mem a ha', b', hb', he⟩

/-! ## Two chains side by side -/

/-- Two checks that fail with the same error, or succeed with related results. -/
inductive Agree (R : α → β → Prop) : Except ε α → Except ε β → Prop where
  /-- Both fail. -/
  | error (e : ε) : Agree R (.error e) (.error e)
  /-- Both succeed. -/
  | ok {a : α} {b : β} : R a b → Agree R (.ok a) (.ok b)

namespace Agree

variable {δ : Type} {R : α → β → Prop} {S : γ → δ → Prop}

theorem of_eq {x y : Except ε α} (h : x = y) : Agree Eq x y := by
  subst h
  cases x with
  | error e => exact .error e
  | ok a => exact .ok rfl

theorem mono {R' : α → β → Prop} {x : Except ε α} {y : Except ε β} (h : Agree R x y)
    (hR : ∀ a b, R a b → R' a b) : Agree R' x y := by
  cases h with
  | error e => exact .error e
  | ok h => exact .ok (hR _ _ h)

theorem bind {x : Except ε α} {y : Except ε β} {f : α → Except ε γ} {g : β → Except ε δ}
    (hxy : Agree R x y) (hfg : ∀ a b, R a b → Agree S (f a) (g b)) :
    Agree S (x >>= f) (y >>= g) := by
  cases hxy with
  | error e => exact .error e
  | ok h => exact hfg _ _ h

/-- A step that both chains take is taken off. -/
theorem bind_same {x : Except ε α} {f : α → Except ε γ} {g : α → Except ε δ}
    (h : ∀ a, Agree S (f a) (g a)) : Agree S (x >>= f) (x >>= g) := by
  cases x with
  | error e => exact .error e
  | ok a => exact h a

theorem need {e : ε} {o : Option α} {o' : Option β} (h : Option.Rel R o o') :
    Agree R (need e o) (need e o') := by
  cases h with
  | none => exact .error e
  | some h => exact .ok h

theorem option_mapM {f : α → Except ε γ} {g : β → Except ε δ} {o : Option α} {o' : Option β}
    (h : Option.Rel R o o') (hfg : ∀ a b, R a b → Agree S (f a) (g b)) :
    Agree (Option.Rel S) (o.mapM f) (o'.mapM g) := by
  cases h with
  | none => exact .ok .none
  | @some a b h =>
    have hab := hfg a b h
    rw [Option.mapM_some, Option.mapM_some]
    generalize f a = x, g b = y at hab ⊢
    cases hab with
    | error e => exact .error e
    | ok h => exact .ok (.some h)

theorem forM {f : α → Except ε Unit} {g : β → Except ε Unit} {as : List α} {bs : List β}
    (h : List.Forall₂ R as bs) (hfg : ∀ a b, R a b → Agree Eq (f a) (g b)) :
    Agree Eq (as.forM f) (bs.forM g) := by
  induction h with
  | nil => exact .ok rfl
  | @cons a b as bs hab _ ih => exact bind (hfg a b hab) fun _ _ _ ↦ ih

/-- Runs whose steps keep a relation between the states keep it to the end. -/
theorem foldlM {f : γ → α → Except ε γ} {g : δ → β → Except ε δ} {as : List α} {bs : List β}
    {c : γ} {d : δ} (h : List.Forall₂ R as bs) (hcd : S c d)
    (hfg : ∀ a b c d, R a b → S c d → Agree S (f c a) (g d b)) :
    Agree S (as.foldlM f c) (bs.foldlM g d) := by
  induction h generalizing c d with
  | nil => exact .ok hcd
  | @cons a b as bs hab _ ih =>
    rw [List.foldlM_cons, List.foldlM_cons]
    exact bind (hfg a b c d hab hcd) fun _ _ ↦ ih

end Agree

/-! ## Chains that stand or fall together

Where the first fault decides which error is reported, two chains that meet their steps in another
order may fail with different ones. `Together` only asks that both fail or both succeed. -/

/-- Two checks that both fail, each with an error of its own, or succeed with related results. -/
inductive Together (R : α → β → Prop) : Except ε α → Except ε β → Prop where
  /-- Both fail. -/
  | error (e e' : ε) : Together R (.error e) (.error e')
  /-- Both succeed. -/
  | ok {a : α} {b : β} : R a b → Together R (.ok a) (.ok b)

namespace Together

variable {δ : Type} {R : α → β → Prop} {S : γ → δ → Prop}

/-- Success on either side tells of success on the other. -/
theorem of_ok {x : Except ε α} {y : Except ε β} (hx : ∀ a, x = .ok a → ∃ b, y = .ok b ∧ R a b)
    (hy : ∀ b, y = .ok b → ∃ a, x = .ok a) : Together R x y := by
  cases x with
  | ok a =>
    obtain ⟨b, rfl, h⟩ := hx a rfl
    exact .ok h
  | error e =>
    cases y with
    | error e' => exact .error e e'
    | ok b =>
      obtain ⟨a, ha⟩ := hy b rfl
      exact absurd ha (by simp)

theorem of_eq {x y : Except ε α} (h : x = y) : Together Eq x y :=
  .of_ok (fun a ha ↦ ⟨a, h ▸ ha, rfl⟩) fun b hb ↦ ⟨b, h ▸ hb⟩

theorem mono {R' : α → β → Prop} {x : Except ε α} {y : Except ε β} (h : Together R x y)
    (hR : ∀ a b, x = .ok a → y = .ok b → R a b → R' a b) : Together R' x y := by
  cases h with
  | error e e' => exact .error e e'
  | ok h => exact .ok (hR _ _ rfl rfl h)

theorem bind {x : Except ε α} {y : Except ε β} {f : α → Except ε γ} {g : β → Except ε δ}
    (hxy : Together R x y) (hfg : ∀ a b, R a b → Together S (f a) (g b)) :
    Together S (x >>= f) (y >>= g) := by
  cases hxy with
  | error e e' => exact .error e e'
  | ok h => exact hfg _ _ h

theorem map {x : Except ε α} {y : Except ε β} {f : α → γ} {g : β → δ} (hxy : Together R x y)
    (hfg : ∀ a b, R a b → S (f a) (g b)) : Together S (x.map f) (y.map g) := by
  cases hxy with
  | error e e' => exact .error e e'
  | ok h => exact .ok (hfg _ _ h)

theorem foldlM {f : γ → α → Except ε γ} {g : δ → α → Except ε δ} {as : List α} {c : γ} {d : δ}
    (hcd : S c d) (hfg : ∀ a ∈ as, ∀ c d, S c d → Together S (f c a) (g d a)) :
    Together S (as.foldlM f c) (as.foldlM g d) := by
  induction as generalizing c d with
  | nil => exact .ok hcd
  | cons a as ih =>
    rw [List.foldlM_cons, List.foldlM_cons]
    exact bind (hfg a List.mem_cons_self c d hcd) fun _ _ h ↦
      ih h fun b hb ↦ hfg b (List.mem_cons_of_mem a hb)

/-- A check of all members does not ask for their order. -/
theorem forM_perm {f : α → Except ε Unit} {as bs : List α} (h : as.Perm bs) :
    Together Eq (as.forM f) (bs.forM f) :=
  have hiff : as.forM f = .ok () ↔ bs.forM f = .ok () := by
    simp only [forM_eq_ok_iff, h.mem_iff]
  .of_ok (fun _ ha ↦ ⟨(), hiff.mp ha, rfl⟩) fun _ hb ↦ ⟨(), hiff.mpr hb⟩

theorem mapM_perm {f : α → Except ε β} {as as' : List α} (has : as.Perm as') :
    Together List.Perm (as.mapM f) (as'.mapM f) :=
  .of_ok (fun _ h ↦ exists_perm_of_mapM has h) fun _ h ↦
    (exists_perm_of_mapM has.symm h).imp fun _ h ↦ h.1

/-- What is known of two chains carries over to chains that agree with them. -/
theorem of_agree {α' β' : Type} {Sα : α' → α → Prop} {Sβ : β' → β → Prop} {T : α' → β' → Prop}
    {x : Except ε α} {y : Except ε β} {x' : Except ε α'} {y' : Except ε β'} (h : Together R x y)
    (hx : Agree Sα x' x) (hy : Agree Sβ y' y)
    (hT : ∀ a b a' b', R a b → Sα a' a → Sβ b' b → T a' b') : Together T x' y' := by
  cases h with
  | error e e' =>
    cases hx
    cases hy
    exact .error e e'
  | ok h =>
    obtain _ | hx := hx
    obtain _ | hy := hy
    exact .ok (hT _ _ _ _ h hx hy)

end Together

end Tabletop
