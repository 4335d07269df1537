import Tabletop.Proofs.RuleSet.Step

/-!
# Checked actions do not go wrong

An action is checked when it is defined, against the kinds of attributes. When it is used it meets
something else: the kind that a slot records, and the value in the slot. A rule set is typed when
the two agree (`RuleSet.Typed`), and it stays typed whatever is done, as long as no attribute is
removed or renamed, or changes to a kind that accepts other values (`Typed.step`). Everything else
may go: actions and entities may be removed and renamed, since values do not depend on them.

In a typed rule set a use of an action can still fail, for want of an attribute or a target, for
instance. But of all the mismatches of types only those are left that no check of kinds can rule
out (`Action.CanMismatch`): an order that is asked for on a text or a truth value, and a number that
grows out of range.
-/

namespace Tabletop

/-! ## What checks cannot rule out -/

/-- A sum or a product of two finite numbers that is not finite. -/
inductive Effect.Overflows (f : Effect) : Refusal → Prop where
  /-- A sum. -/
  | sum {l r : Number} :
    f.modifier = .add → l.isFinite = true → r.isFinite = true → (l + r).isFinite = false →
      Overflows f (.range .add l r)
  /-- A product. -/
  | product {l r : Number} :
    f.modifier = .multiply → l.isFinite = true → r.isFinite = true → (l * r).isFinite = false →
      Overflows f (.range .multiply l r)

/-- The mismatches that a checked action can still end with. -/
inductive Action.CanMismatch (a : Action) : Mismatch → Prop where
  /-- A condition asks for an order on a value that is no number. -/
  | condition {f : Effect} {c : Condition} {found : Shape} :
    f ∈ a.effects → c ∈ f.condition → c.comparator.isOrdering = true → found ≠ .number →
      CanMismatch a (.comparison c.comparator found .number)
  /-- An amount is drawn from a finite number and is not finite. -/
  | amount {f : Effect} {d : Draw} {entity : String} {x : Number} :
    f ∈ a.effects → f.amount = .drawn d → x.isFinite = true → (d.total x).isFinite = false →
      CanMismatch a (.amountRange entity d.source)
  /-- A result is not finite. -/
  | change {f : Effect} {entity : String} {refusal : Refusal} :
    f ∈ a.effects → f.Overflows refusal →
      CanMismatch a (.effect refusal a.name entity f.attr)

/-! ## Typed values -/

section Values

variable {w : RuleSet} {v : Value}

/-- What a typed entity holds under an attribute is what the attribute asks for. -/
theorem Entity.Typed.value? {e : Entity} {attr : String} (h : e.Typed w)
    (hv : e.value? attr = some v) :
    ∃ a, w.attributes.get? attr = some a ∧ a.kind.accepts v = true ∧ v.isFinite = true := by
  obtain ⟨s, hs, rfl⟩ := Option.map_eq_some_iff.mp hv
  obtain ⟨a, ha, -, haccepts, hfinite⟩ := h.slots s (List.mem_of_find?_eq_some hs)
  have hattr : s.attr = attr := by simpa using List.find?_some hs
  exact ⟨a, hattr ▸ ha, haccepts, hfinite⟩

/-- **A checked amount is drawn from a number.** -/
theorem Entity.Typed.eq_number_of_source {e : Entity} {f : Effect} {d : Draw} (h : e.Typed w)
    (hcheck : w.checkEffect f = .ok ()) (hd : f.amount = .drawn d)
    (hv : e.value? d.source = some v) : ∃ x, v = .number x ∧ x.isFinite = true := by
  obtain ⟨target, -, -, hamount, -⟩ := RuleSet.checkEffect_eq_ok_iff.mp hcheck
  rw [hd, RuleSet.checkAmount, bind_eq_ok_iff] at hamount
  obtain ⟨source, hsource, hkinds⟩ := hamount
  have hnumeric := (Bool.and_eq_true_iff.mp (require_eq_ok_iff.mp hkinds)).1
  -- what the check has looked up is what the entity goes by
  obtain ⟨source', hsource', haccepts, hfinite⟩ := h.value? hv
  obtain rfl := Option.some.inj ((RuleSet.defined_eq_ok_iff.mp hsource).symm.trans hsource')
  rw [Kind.accepts_of_isNumeric hnumeric, decide_eq_true_iff] at haccepts
  cases v with
  | number x => exact ⟨x, rfl, hfinite⟩
  | text s | boolean b => exact absurd haccepts (by simp [Value.shape])

/-- **A checked effect is refused for its result only.** Its amount is one that the slot accepts,
and arithmetic is done on slots that hold numbers. -/
theorem Slot.Fits.overflows {s : Slot} {f : Effect} {user : Entity} {target? : Option Entity}
    {amount : Value} {refusal : Refusal} (hs : s.Fits w) (hattr : s.attr = f.attr)
    (hcheck : w.checkEffect f = .ok ()) (hamount : f.amount.resolve user target? = .ok amount)
    (hrefused : f.modifier.apply s.kind s.value amount = .error refusal) :
    f.Overflows refusal := by
  obtain ⟨a, ha, hkind, haccepts, hfinite⟩ := hs
  obtain ⟨target, htarget, hmodifier, hcheck, -⟩ := RuleSet.checkEffect_eq_ok_iff.mp hcheck
  obtain rfl : a = target := Option.some.inj ((hattr ▸ ha).symm.trans htarget)
  have haccepted := Amount.accepts_of_resolve hmodifier hcheck hamount
  have hfinite' := Amount.isFinite_of_resolve hcheck hamount
  rw [Modifier.apply_eq_error_iff] at hrefused
  -- arithmetic has a number on both sides
  have hnumbers : f.modifier ≠ .assign → s.value.shape = .number ∧ amount.shape = .number := by
    intro hne
    have hnumeric : a.kind.isNumeric = true := by simpa [hne] using hmodifier
    rw [Kind.accepts_of_isNumeric hnumeric, decide_eq_true_iff] at haccepts haccepted
    exact ⟨haccepts, haccepted⟩
  cases hm : f.modifier with
  | assign =>
    rw [hm, hkind] at hrefused
    exact absurd (haccepted.symm.trans hrefused.1) (by simp)
  | add =>
    rw [hm] at hrefused
    obtain ⟨hvalue, hshape⟩ := hnumbers (by simp [hm])
    obtain ⟨hshapes, -⟩ | ⟨l, r, hl, hr, hinfinite, rfl⟩ := hrefused
    · exact absurd hshape (hshapes hvalue)
    · rw [hl] at hfinite
      rw [hr] at hfinite'
      exact .sum hm hfinite hfinite' hinfinite
  | multiply =>
    rw [hm] at hrefused
    obtain ⟨hvalue, hshape⟩ := hnumbers (by simp [hm])
    obtain ⟨hshapes, -⟩ | ⟨l, r, hl, hr, hinfinite, rfl⟩ := hrefused
    · exact absurd hshape (hshapes hvalue)
    · rw [hl] at hfinite
      rw [hr] at hfinite'
      exact .product hm hfinite hfinite' hinfinite

end Values

namespace RuleSet

variable {w w' : RuleSet}

/-! ## Typed rule sets -/

/-- Whether actions were checked against the attributes that there are, and values are as these
attributes ask. -/
structure Typed (w : RuleSet) : Prop where
  /-- Every effect passes its check. -/
  effects : ∀ a ∈ w.actions.rows, ∀ f ∈ a.effects, w.checkEffect f = .ok ()
  /-- The values of every entity are as their attributes ask. -/
  entities : ∀ e ∈ w.entities.rows, e.Typed w

theorem checkEffect_of_attributes_eq (h : w'.attributes = w.attributes) :
    w'.checkEffect = w.checkEffect := by
  obtain ⟨_, attributes, _, _, _, _⟩ := w
  obtain ⟨_, _, _, _, _, _⟩ := w'
  obtain rfl : _ = attributes := h
  rfl

namespace Typed

variable {name : String}

theorem empty (name : String) : (RuleSet.empty name).Typed :=
  ⟨fun _ ha ↦ absurd ha List.not_mem_nil, fun _ he ↦ absurd he List.not_mem_nil⟩

theorem of_sound (h : w.Sound) : w.Typed :=
  ⟨fun a ha ↦ (checkEffects_eq_ok_iff.mp (h.effects a ha)).2, fun e he ↦ (h.fits e he).typed⟩

/-- Other rows than attributes may change to what passes the same checks. -/
theorem of_rows (w : RuleSet) (hattributes : w'.attributes = w.attributes)
    (heffects : ∀ a ∈ w'.actions.rows, ∀ f ∈ a.effects, w.checkEffect f = .ok ())
    (hentities : ∀ e ∈ w'.entities.rows, e.Typed w) : w'.Typed := by
  refine ⟨?_, fun e he ↦ (hentities e he).mono fun _ _ ha ↦ hattributes ▸ ha⟩
  rw [checkEffect_of_attributes_eq hattributes]
  exact heffects

/-- Events do not matter, nor does the name, nor the event being played. -/
theorem with_events (h : w.Typed) (name : String) (events : Table Event)
    (running : Option String) : Typed { w with name, events, running } :=
  of_rows w rfl h.effects h.entities

/-- Checked effects keep entities typed. -/
theorem preserves (h : w.Typed) :
    ∀ a ∈ w.actions.rows, ∀ f ∈ a.effects, f.Preserves (Entity.Typed w) := by
  intro a ha f hf user target? amount m s after hm hamount hs hafter
  obtain ⟨haccepts, hfinite⟩ :=
    (hm.slots s (List.mem_of_find?_eq_some hs)).writes (h.effects a ha f hf) hamount hafter
  exact hm.put hs haccepts hfinite

/-- Another attribute at the end hides none of those that there are. -/
theorem push_attribute (h : w.Typed) (a : AttributeDef) :
    Typed { w with attributes := w.attributes.push a } := by
  have hget : ∀ name b, w.attributes.get? name = some b →
      (w.attributes.push a).get? name = some b := by
    intro name b hb
    rw [Table.get?_push_of_mem (Table.mem_names_of_get? hb), hb]
  have hext : Extends w { w with attributes := w.attributes.push a } :=
    ⟨fun name b hb ↦ ⟨b, hget name b hb, .refl b.kind⟩, fun _ hn ↦ hn, fun _ hn ↦ hn⟩
  exact ⟨fun a ha f hf ↦ hext.checkEffect (h.effects a ha f hf),
    fun e he ↦ (h.entities e he).mono hget⟩

theorem retype (h : w.Typed) {old : AttributeDef} {kind : Kind}
    (hold : w.attributes.get? name = some old) (halike : old.kind.Alike kind) :
    (w.retype name kind).Typed := by
  have hext := Extends.retype hold halike
  refine ⟨fun a ha f hf ↦ hext.checkEffect (h.effects a ha f hf), ?_⟩
  exact List.forall_mem_map.mpr fun e he ↦ (h.entities e he).relabel hold halike

end Typed

end RuleSet

/-- Whether an operation, performed on a rule set, leaves the attributes and what they accept. -/
def Op.KeepsKinds (w : RuleSet) : Op → Prop
  | modifyAttribute name newName? newKind? =>
    (∀ n ∈ newName?, n = name) ∧
      ∀ old, w.attributes.get? name = some old → ∀ kind ∈ newKind?, old.kind.Alike kind
  | removeAttribute _ => False
  | _ => True

namespace RuleSet

variable {w w' : RuleSet}

/-- The rule sets that operations lead to from empty ones, if they leave the attributes and what
they accept. -/
inductive Steady : RuleSet → Prop where
  /-- A new rule set. -/
  | empty (name : String) : Steady (.empty name)
  /-- One more operation, whether it succeeds or fails. -/
  | after {w : RuleSet} (op : Op) : Steady w → op.KeepsKinds w → Steady (w.after op)

/-- **One step.** An operation that leaves the attributes and what they accept keeps a rule set
typed, even if it fails. -/
theorem Typed.step {op : Op} (h : w.Typed) (hstep : w.Step op w') (hop : op.KeepsKinds w) :
    w'.Typed := by
  cases hstep with
  | kept => exact h
  | rename | defineEvent _ _ | removeEvent | resetEvent => exact h.with_events _ _ _
  | defineAttribute _ => exact h.push_attribute _
  | defineAction _ hcheck =>
    have heffects := (checkEffects_eq_ok_iff.mp hcheck).2
    exact of_rows w rfl (Table.forall_mem_push h.effects heffects) h.entities
  | defineEntity _ hslots _ =>
    obtain ⟨hnodup, hfits⟩ := fits_of_checkSlots hslots
    exact of_rows w rfl h.effects (Table.forall_mem_push h.entities ⟨hnodup, hfits⟩)
  | @modifyAttribute name newName? newKind? old hold _ =>
    obtain ⟨hnewName, hnewKind⟩ := hop
    refine (congrArg Typed (eq_retype_of_keeps_name hold hnewName)).mpr ?_
    cases newKind? with
    | none => exact h
    | some kind => exact h.retype hold (hnewKind old hold kind rfl)
  | @modifyAction _ _ newEffects? old hold _ hcheck =>
    refine of_rows w rfl (Table.forall_mem_adjust h.effects fun _ _ ↦ ?_) h.entities
    cases newEffects? with
    | none => exact h.effects old (Table.get?_eq_some hold).1
    | some effects => exact (checkEffects_eq_ok_iff.mp (hcheck effects rfl)).2
  | @modifyEntity _ _ _ _ _ old hold _ hslots _ =>
    refine of_rows w rfl h.effects (Table.forall_mem_adjust h.entities fun _ _ ↦ ?_)
    cases hslots with
    | none =>
      have hentity := h.entities old (Table.get?_eq_some hold).1
      exact ⟨hentity.nodup_slots, hentity.slots⟩
    | some hslots =>
      obtain ⟨hnodup, hfits⟩ := fits_of_checkSlots hslots
      exact ⟨hnodup, hfits⟩
  | removeAttribute => exact hop.elim
  | removeAction => exact of_rows w rfl (Table.forall_mem_without h.effects) h.entities
  | removeEntity => exact of_rows w rfl h.effects (Table.forall_mem_without h.entities)
  | useAction ho =>
    have hmembers := forall_mem_rehearse h.entities h.preserves ho
    exact of_rows w rfl h.effects (Table.forall_mem_putAll h.entities hmembers)
  | @startEvent _ e _ _ _ =>
    -- events are not looked at, so only what the turns did to entities matters
    have hmembers := forall_mem_played h.entities h.preserves e
    obtain ⟨ms, e', hframe, -⟩ := w.played_frame e
    rw [hframe] at hmembers ⊢
    exact of_rows w rfl h.effects hmembers
  | load hbuild => exact .of_sound (Document.atRest_of_build hbuild).sound

/-- **Every run.** Operations that leave the attributes and what they accept lead to typed rule
sets. -/
theorem Steady.typed (h : w.Steady) : w.Typed := by
  induction h with
  | empty name => exact .empty name
  | after op _ hop ih => exact ih.step (step_after _ op) hop

/-! ## What is left to go wrong -/

variable {a : Action} {cause : Mismatch}

/-- **A checked action ends with few mismatches.** Where it fails, it fails at an entity whose
values are as their attributes ask. -/
theorem Typed.canMismatch (h : w.Typed) (ha : a ∈ w.actions.rows)
    (hfails : a.Fails (Entity.Typed w) (.typeMismatch cause)) : a.CanMismatch cause := by
  cases hfails with
  | @condition f c m v _ hf hc hm hv hcompare =>
    obtain ⟨hordering, hshapes, hcause⟩ := Comparator.compare_eq_error_iff.mp hcompare
    obtain rfl := RuleError.typeMismatch.inj hcause
    -- the declared value is a number, since the comparison was checked
    obtain ⟨-, -, -, -, hcheck⟩ := checkEffect_eq_ok_iff.mp (h.effects a ha f hf)
    have hshape : c.value.shape = .number :=
      Comparator.ensureOrderable_eq_ok_iff.mp (checkCondition_eq_ok_iff.mp (hcheck c hc)).2 hordering
    rw [hshape] at hshapes ⊢
    exact .condition hf hc hordering fun hv ↦ hshapes hv rfl
  | @amountSource f d m v hf hd hm hv hnone =>
    obtain ⟨x, rfl, -⟩ := hm.eq_number_of_source (h.effects a ha f hf) hd hv
    exact absurd hnone (by simp [Value.number?])
  | @amountRange f d m v x hf hd hm hv hx hinfinite =>
    obtain ⟨y, rfl, hfinite⟩ := hm.eq_number_of_source (h.effects a ha f hf) hd hv
    obtain rfl := Option.some.inj hx
    exact .amount hf hd hfinite hinfinite
  | @change f m user target? s amount refusal hf hm hs hamount hrefused =>
    have hattr : s.attr = f.attr := by simpa using List.find?_some hs
    have hfits := hm.slots s (List.mem_of_find?_eq_some hs)
    exact .change hf (hfits.overflows hattr (h.effects a ha f hf) hamount hrefused)

/-- **Checked actions do not go wrong.** In a rule set whose attributes were left, with what they
accept, a use of an action that ends with a mismatch of types has a condition to blame, or a number
that is not finite. It never draws an amount from what is no number, never calculates with what is
no number, and never assigns what a slot refuses. -/
theorem mismatch_of_useAction {user action : String} {targets : List String} (h : w.Steady)
    (hfail : w.perform (useAction user action targets) = (.error (.typeMismatch cause), w')) :
    (∃ a, w.actions.get? action = some a ∧ a.CanMismatch cause) ∧
      (∀ attr entity found, cause ≠ .amountSource attr entity found) ∧
      (∀ m l r name entity attr, cause ≠ .effect (.operands m l r) name entity attr) ∧
      ∀ found name entity attr, cause ≠ .effect (.assign found) name entity attr := by
  have htyped := h.typed
  have hr := (perform_useAction_eq_error_iff.mp hfail).1
  obtain ⟨_, herr⟩ | herr | ⟨_, herr⟩ | ⟨a, ha, hfails⟩ :=
    rehearse_eq_error htyped.entities htyped.preserves hr
  · exact absurd herr (by simp)
  · exact absurd herr (by simp)
  · exact absurd herr (by simp)
  · have hcan := htyped.canMismatch (Table.get?_eq_some ha).1 hfails
    refine ⟨⟨a, ha, hcan⟩, ?_, ?_, ?_⟩
    · rintro attr entity found rfl
      cases hcan
    · rintro m l r name entity attr rfl
      obtain _ | _ | ⟨_, hoverflow⟩ := hcan
      cases hoverflow
    · rintro found name entity attr rfl
      obtain _ | _ | ⟨_, hoverflow⟩ := hcan
      cases hoverflow

/-- A forge that is as hot as a number can tell. Heat has become a share and the action to stoke has
another name by now, and Bob has left. -/
def forge : RuleSet :=
  [.defineAttribute "heat" .number,
    .defineAction "stoke" [⟨"heat", .user, .multiply, .literal (.number (.ofInt 10)), none⟩],
    .defineEntity "Ann" [⟨"heat", .number, .number (.ofInt (10 ^ 308))⟩] ["stoke"],
    .defineEntity "Bob" [] [], .modifyAttribute "heat" none (some .percent),
    .modifyAction "stoke" (some "fan") none, .modifyEntity "Ann" none none (some ["fan"]),
    .removeEntity "Bob"].foldl after (.empty "forge")

theorem mismatch_of_useAction_forge :
    (forge.Steady ∧ forge.perform (useAction "Ann" "fan" []) =
      (.error (.typeMismatch
        (.effect (.range .multiply (.ofInt (10 ^ 308)) (.ofInt 10)) "fan" "Ann" "heat")), forge)) ∧
      ∃ a, forge.actions.get? "fan" = some a ∧ a.CanMismatch
        (.effect (.range .multiply (.ofInt (10 ^ 308)) (.ofInt 10)) "fan" "Ann" "heat") := by
  -- one step asks something of the rule set: that heat was a number
  have hkind : ∀ w : RuleSet, w.attributes.get? "heat" = some ⟨"heat", .number⟩ →
      (Op.modifyAttribute "heat" none (some .percent)).KeepsKinds w := by
    refine fun w hw ↦ ⟨fun _ hn ↦ absurd hn (Option.not_mem_none _), fun old hold kind hkind ↦ ?_⟩
    obtain rfl : ⟨"heat", .number⟩ = old := Option.some.inj (hw.symm.trans hold)
    obtain rfl : .percent = kind := Option.some.inj hkind
    exact .inr ⟨rfl, rfl⟩
  have hsteady : forge.Steady :=
    .after _ (.after _ (.after _ (.after _ (.after _ (.after _ (.after _ (.after _
      (.empty "forge") trivial) trivial) trivial) trivial) (hkind _ (by decide +kernel)))
      trivial) trivial) trivial
  have hfail : forge.perform (useAction "Ann" "fan" []) =
      (.error (.typeMismatch
        (.effect (.range .multiply (.ofInt (10 ^ 308)) (.ofInt 10)) "fan" "Ann" "heat")),
        forge) :=
    perform_useAction_eq_error_iff.mpr ⟨by decide +kernel, rfl⟩
  exact ⟨⟨hsteady, hfail⟩, (mismatch_of_useAction hsteady hfail).1⟩

end RuleSet

end Tabletop
