import Tabletop.Proofs.RuleSet.Direct
import Tabletop.Proofs.RuleSet.Names

/-!
# Names that no longer resolve

A removal takes out one row and leaves what refers to it. What becomes of a use of an action that
runs into the name later depends on where the name is looked up.

Users, actions and targets are looked up in the tables. There the name stays missing until an
operation gives it to a row again (`LaterWithout.not_mem_namesOf`), so the use fails. That a user
does not have the action is noticed before targets are looked up, and then this is the error.

Attributes are not looked up in their table but among the values of the entities that an effect
touches. An entity may go on to hold a value under the name of an attribute that was removed, and as
long as it does the attribute can be changed (`useAction_orchard`). No operation gives an entity a
value under such a name, though (`LaterWithout.not_givesValue`), and a use that comes to an entity
without one fails.
-/

namespace Tabletop

/-! ## What a direct run does to slots -/

/-- Whether an effect of an action that is used touches the entity of a name. -/
def Effect.Touches (f : Effect) (user : String) (targets : List String) (name : String) : Prop :=
  match f.scope with
  | .user => name = user
  | .single => targets.head? = some name
  | .every => name ∈ targets

namespace DirectRun

variable {a : Action} {f : Effect} {user name n : String} {targets names : List String}
  {r r' : DirectRun} {t : Table Entity} {target? : Option String} {err : RuleError}

/-- Two tables with the same names, under which entities hold values of the same attributes. -/
def SameAttrs (t t' : Table Entity) : Prop :=
  ∀ n, (t'.get? n).map Entity.attrs = (t.get? n).map Entity.attrs

theorem sameAttrs_touch (h : touch a user targets f r name = .ok r') :
    SameAttrs r.entities r'.entities := by
  obtain rfl | ⟨_, _, after, -, -, rfl⟩ := touch_cases h
  · exact fun _ ↦ rfl
  · have hname : ∀ e : Entity, Named.name e = name → Named.name (e.put f.attr after) = name :=
      fun _ he ↦ he
    intro n
    change ((r.entities.adjust name (·.put f.attr after)).get? n).map Entity.attrs = _
    by_cases hn : n = name
    · rw [hn, Table.get?_adjust_self hname, Option.map_map]
      exact Option.map_congr fun e _ ↦ e.attrs_put f.attr after
    · rw [Table.get?_adjust_of_ne hname hn]

theorem sameAttrs_step (h : step a user targets r f = .ok r') :
    SameAttrs r.entities r'.entities := by
  obtain ⟨names, -, h⟩ := bind_eq_ok_iff.mp h
  obtain ⟨-, h⟩ := check_bind_eq_ok_iff.mp h
  exact foldlM_induct (P := fun r' ↦ SameAttrs r.entities r'.entities) (fun _ ↦ rfl)
    (fun _ _ _ _ hr ht n ↦ (sameAttrs_touch ht n).trans (hr n)) h

/-- **No effect gives an entity a slot or takes one away.** -/
theorem sameAttrs_run (h : run a user targets t = .ok r) : SameAttrs t r.entities :=
  foldlM_induct (P := fun r ↦ SameAttrs t r.entities) (fun _ ↦ rfl)
    (fun _ _ _ _ hr hs n ↦ (sameAttrs_step hs n).trans (hr n)) h

theorem touched_of_touches (h : f.Touches user targets n) :
    ∃ names, touched a user targets f.scope = .ok names ∧ n ∈ names ∧
      ∀ name ∈ names, name = user ∨ name ∈ targets := by
  rw [Effect.Touches] at h
  cases hscope : f.scope with
  | user =>
    rw [hscope] at h
    exact ⟨[user], rfl, List.mem_singleton.mpr h,
      fun _ hname ↦ .inl (List.mem_singleton.mp hname)⟩
  | single =>
    rw [hscope] at h
    refine ⟨[n], ?_, List.mem_singleton_self n, fun _ hname ↦ .inr ?_⟩
    · rw [touched, h]
      rfl
    · rw [List.mem_singleton.mp hname]
      exact List.mem_of_mem_head? h
  | every =>
    rw [hscope] at h
    exact ⟨targets, if_neg (by simp [List.ne_nil_of_mem h]), h, fun _ hname ↦ .inr hname⟩

/-- An effect that comes to an entity without the attribute is not carried out. -/
theorem step_eq_error {e : Entity} (hknown : ∀ name, name = user ∨ name ∈ targets →
    name ∈ r.entities.names) (htouches : f.Touches user targets n)
    (hget : r.entities.get? n = some e) (hattr : f.attr ∉ e.attrs) :
    ∃ other, step a user targets r f = .error (.unknownAttribute f.attr (.entity other)) := by
  obtain ⟨names, htouched, hn, hnames⟩ := touched_of_touches (a := a) htouches
  rw [step, htouched]
  change ∃ other, ((names.forM fun name ↦ row r.entities name >>= fun e ↦ discard (Action.slot f e))
    >>= fun _ ↦ names.foldlM (touch a user targets f) r) = _
  -- the check of what is touched cannot succeed, and it fails at an entity that is there
  cases hcheck : names.forM fun name ↦
      row r.entities name >>= fun e ↦ discard (Action.slot f e) with
  | ok u =>
    obtain ⟨e', he', hdiscard⟩ := bind_eq_ok_iff.mp (forM_eq_ok_iff.mp hcheck n hn)
    obtain rfl := Option.some.inj ((need_eq_ok_iff.mp he').symm.trans hget)
    obtain ⟨s, hs⟩ := discard_eq_ok_iff.mp hdiscard
    exact absurd ((Action.slot_eq_ok_iff.mp hs).symm.trans (Entity.slot?_eq_none_iff.mpr hattr))
      (by simp)
  | error err =>
    obtain ⟨name, hname, herr⟩ := exists_error_of_forM hcheck
    obtain ⟨e', he'⟩ := Option.isSome_iff_exists.mp
      (Table.contains_iff.mpr (hknown name (hnames name hname)))
    obtain hrow | ⟨e'', -, hdiscard⟩ := bind_eq_error_iff.mp herr
    · exact absurd ((need_eq_error_iff.mp hrow).1.symm.trans he') (by simp)
    · obtain ⟨-, rfl⟩ := need_eq_error_iff.mp (discard_eq_error_iff.mp hdiscard)
      exact ⟨e''.name, rfl⟩

end DirectRun

/-! ## Uses that fail -/

namespace RuleSet

variable {w w' : RuleSet} {user action name n : String} {targets : List String} {kind : RowKind}
  {err : RuleError}

/-- The errors with which a use is refused before any effect is looked at. -/
inductive Refuses (w : RuleSet) (user action : String) (targets : List String) : RuleError → Prop
  where
  /-- There is no such user. -/
  | user : user ∉ w.entities.names → Refuses w user action targets (.unknownEntity user)
  /-- There is no such action. -/
  | action : user ∈ w.entities.names → action ∉ w.actions.names →
    Refuses w user action targets (.unknownAction action)
  /-- The user does not have the action. -/
  | owner {u : Entity} : w.entities.get? user = some u → action ∈ w.actions.names →
    u.hasAction action = false → Refuses w user action targets (.actionNotOwned user action)
  /-- There is no such target. -/
  | target {name : String} : name ∈ targets → name ∉ w.entities.names →
    Refuses w user action targets (.unknownEntity name)

/-- A use is refused, or all its names are known and the action is carried out. -/
theorem useDirectly_cases (w : RuleSet) (user action : String) (targets : List String) :
    (∃ err, w.useDirectly user action targets = .error err ∧ w.Refuses user action targets err) ∨
      ∃ a, w.actions.get? action = some a ∧
        (∀ name, name = user ∨ name ∈ targets → name ∈ w.entities.names) ∧
        w.useDirectly user action targets = DirectRun.run a user targets w.entities := by
  cases hu : w.entities.get? user with
  | none =>
    refine .inl ⟨_, ?_, .user (Table.get?_eq_none_iff.mp hu)⟩
    rw [useDirectly, knownEntity, hu]
    rfl
  | some u =>
    have huser := Table.mem_names_of_get? hu
    cases ha : w.actions.get? action with
    | none =>
      refine .inl ⟨_, ?_, .action huser (Table.get?_eq_none_iff.mp ha)⟩
      rw [useDirectly, knownEntity, hu, knownAction, ha]
      rfl
    | some a =>
      have hsplit : w.useDirectly user action targets =
          (u.ensureCanUse a >>= fun _ ↦ (targets.forM fun name ↦ discard (w.knownEntity name)) >>=
            fun _ ↦ DirectRun.run a user targets w.entities) := by
        rw [useDirectly, knownEntity, hu, knownAction, ha]
        rfl
      have hname : a.name = action := (Table.get?_eq_some ha).2
      rw [hsplit]
      cases hcan : u.ensureCanUse a with
      | error err =>
        obtain ⟨hlacks, rfl⟩ := require_eq_error_iff.mp hcan
        rw [show u.name = user from (Table.get?_eq_some hu).2, hname]
        exact .inl ⟨_, rfl, .owner hu (Table.mem_names_of_get? ha) (hname ▸ hlacks)⟩
      | ok _ =>
        cases hts : targets.forM fun name ↦ discard (w.knownEntity name) with
        | error err =>
          obtain ⟨other, hother, herr⟩ := exists_error_of_forM hts
          obtain ⟨hnone, rfl⟩ := need_eq_error_iff.mp (discard_eq_error_iff.mp herr)
          exact .inl ⟨_, rfl, .target hother (Table.get?_eq_none_iff.mp hnone)⟩
        | ok _ =>
          refine .inr ⟨a, rfl, ?_, rfl⟩
          rintro name (rfl | hname)
          · exact huser
          · obtain ⟨e, he⟩ := discard_eq_ok_iff.mp (forM_eq_ok_iff.mp hts name hname)
            exact Table.mem_names_of_get? (knownEntity_eq_ok_iff.mp he)

/-- A use fails as the direct use does, and then it changes nothing. -/
theorem perform_useAction_of_useDirectly (h : w.useDirectly user action targets = .error err) :
    w.perform (useAction user action targets) = (.error err, w) := by
  have hagree := w.agree_rehearse user action targets
  rw [h] at hagree
  rw [perform_useAction]
  generalize w.rehearse user action targets = x at hagree ⊢
  cases hagree with
  | error err => rfl

/-- A use that names who is not there is refused. -/
theorem refuses_of_not_mem (h : name = user ∨ name ∈ targets) (hname : name ∉ w.entities.names) :
    ∃ err, w.perform (useAction user action targets) = (.error err, w) ∧
      w.Refuses user action targets err := by
  obtain ⟨err, herr, hrefuses⟩ | ⟨_, -, hknown, -⟩ := w.useDirectly_cases user action targets
  · exact ⟨err, perform_useAction_of_useDirectly herr, hrefuses⟩
  · exact absurd (hknown name h) hname

theorem useAction_of_unknown_user (h : user ∉ w.entities.names) :
    w.perform (useAction user action targets) = (.error (.unknownEntity user), w) := by
  refine perform_useAction_of_useDirectly ?_
  rw [useDirectly, knownEntity, Table.get?_eq_none_iff.mpr h]
  rfl

theorem useAction_of_unknown_action (h : action ∉ w.actions.names) :
    ∃ err, w.perform (useAction user action targets) = (.error err, w) ∧
      (err = .unknownEntity user ∨ err = .unknownAction action) := by
  by_cases huser : user ∈ w.entities.names
  · obtain ⟨u, hu⟩ := Option.isSome_iff_exists.mp (Table.contains_iff.mpr huser)
    refine ⟨_, perform_useAction_of_useDirectly ?_, .inr rfl⟩
    rw [useDirectly, knownEntity, hu, knownAction, Table.get?_eq_none_iff.mpr h]
    rfl
  · exact ⟨_, useAction_of_unknown_user huser, .inl rfl⟩

/-- **A use that comes to an entity without the attribute fails.** It is refused, or it fails with
the effects before the one that changes the attribute, or for the attribute. -/
theorem useAction_eq_error_of_attr {a : Action} {f : Effect} {e : Entity}
    (ha : w.actions.get? action = some a) (hf : f ∈ a.effects)
    (htouches : f.Touches user targets n) (he : w.entities.get? n = some e)
    (hattr : f.attr ∉ e.attrs) :
    ∃ err, w.perform (useAction user action targets) = (.error err, w) ∧
      (w.Refuses user action targets err ∨
        (∃ before after, a.effects = before ++ f :: after ∧
          DirectRun.run { a with effects := before } user targets w.entities = .error err) ∨
        ∃ other, err = .unknownAttribute f.attr (.entity other)) := by
  obtain ⟨err, herr, hrefuses⟩ | ⟨a', ha', hknown, hrun⟩ := w.useDirectly_cases user action targets
  · exact ⟨err, perform_useAction_of_useDirectly herr, .inl hrefuses⟩
  obtain rfl : a = a' := Option.some.inj (ha.symm.trans ha')
  obtain ⟨before, after, heffects⟩ := List.append_of_mem hf
  -- the run comes to the effect, or it fails before
  rw [DirectRun.run, heffects, List.foldlM_append] at hrun
  cases hbefore : DirectRun.run { a with effects := before } user targets w.entities with
  | error err =>
    change before.foldlM (DirectRun.step a user targets) ⟨w.entities, [], 0⟩ = _ at hbefore
    rw [hbefore] at hrun
    exact ⟨err, perform_useAction_of_useDirectly hrun,
      .inr (.inl ⟨before, after, heffects, hbefore⟩)⟩
  | ok r =>
    have hsame := DirectRun.sameAttrs_run hbefore
    change before.foldlM (DirectRun.step a user targets) ⟨w.entities, [], 0⟩ = _ at hbefore
    have hknown' : ∀ name, name = user ∨ name ∈ targets → name ∈ r.entities.names := by
      intro name hname
      have hmem := Table.contains_iff.mpr (hknown name hname)
      refine Table.contains_iff.mp ?_
      rw [Table.contains, ← Option.isSome_map (f := Entity.attrs), hsame name, Option.isSome_map]
      exact hmem
    obtain ⟨e', he', hattrs⟩ := Option.map_eq_some_iff.mp
      ((hsame n).trans (congrArg (Option.map Entity.attrs) he))
    obtain ⟨other, hstep⟩ := DirectRun.step_eq_error (a := a) hknown' htouches he' (hattrs ▸ hattr)
    rw [hbefore] at hrun
    change _ = DirectRun.step a user targets r f >>= _ at hrun
    rw [hstep] at hrun
    exact ⟨_, perform_useAction_of_useDirectly hrun, .inr (.inr ⟨other, rfl⟩)⟩

end RuleSet

/-! ## After a removal -/

/-- The operation that removes a row. -/
def Op.removing : RowKind → String → Op
  | .attr, name => .removeAttribute name
  | .action, name => .removeAction name
  | .entity, name => .removeEntity name
  | .event, name => .removeEvent name

namespace RuleSet

variable {w w' : RuleSet} {name n : String} {kind : RowKind} {err : RuleError}

/-- A name that is removed is gone. -/
theorem not_mem_namesOf_removing (h : (w.namesOf kind).Nodup)
    (hok : (Op.removing kind name).Succeeds w) :
    name ∉ (w.after (.removing kind name)).namesOf kind := by
  obtain ⟨answer, hok⟩ := hok
  cases kind with
  | attr =>
    obtain ⟨-, hafter⟩ := perform_removeAttribute_eq_ok_iff.mp (Prod.ext hok rfl)
    rw [show w.after (.removing .attr name) = _ from hafter]
    exact Table.not_mem_names_without h
  | action =>
    obtain ⟨-, hafter⟩ := perform_removeAction_eq_ok_iff.mp (Prod.ext hok rfl)
    rw [show w.after (.removing .action name) = _ from hafter]
    exact Table.not_mem_names_without h
  | entity =>
    obtain ⟨-, hafter⟩ := perform_removeEntity_eq_ok_iff.mp (Prod.ext hok rfl)
    rw [show w.after (.removing .entity name) = _ from hafter]
    exact Table.not_mem_names_without h
  | event =>
    obtain ⟨-, hafter⟩ := perform_removeEvent_eq_ok_iff.mp (Prod.ext hok rfl)
    rw [show w.after (.removing .event name) = _ from hafter]
    exact Table.not_mem_names_without h

/-- The rule sets that operations lead to from one, if none of them gives a name to a row. -/
inductive LaterWithout (kind : RowKind) (name : String) (w : RuleSet) : RuleSet → Prop where
  /-- Nothing was done. -/
  | refl : LaterWithout kind name w w
  /-- One more operation, which does not bring the name, or fails. -/
  | after {w' : RuleSet} (op : Op) : LaterWithout kind name w w' →
    (op.Succeeds w' → name ∉ op.brings kind) → LaterWithout kind name w (w'.after op)

theorem LaterWithout.reachable (h : LaterWithout kind name w w') (hw : w.Reachable) :
    w'.Reachable := by
  induction h with
  | refl => exact hw
  | after op _ _ ih => exact .after op ih

/-- **Every run.** A name that no row has, and that is not given to one, goes on to be missing. -/
theorem LaterWithout.not_mem_namesOf (h : LaterWithout kind name w w')
    (hw : name ∉ w.namesOf kind) : name ∉ w'.namesOf kind := by
  induction h with
  | refl => exact hw
  | after op _ hop ih => exact not_mem_namesOf_after ih hop

/-! ## Values under a name that is missing

Entities are known by their names, and a change of an entity may give it another one. So who holds a
value after an operation is compared with the entity that it was before, under the name it had
then. -/

/-- The name that the entity of a name had before an operation. -/
def formerName (w : RuleSet) : Op → String → String
  | .modifyEntity name (some newName) newSlots? newActions?, n =>
    let changed := (w.perform (modifyEntity name (some newName) newSlots? newActions?)).1.isOk
    if changed ∧ n = newName then name else n
  | _, n => n

/-- Whether an operation gives the entity of a name a value of an attribute: the entity holds one
after the operation, and before it held none, or was not there. -/
def GivesValue (w : RuleSet) (op : Op) (attr name : String) : Prop :=
  ∃ e', (w.after op).entities.get? name = some e' ∧ attr ∈ e'.attrs ∧
    ∀ e, w.entities.get? (w.formerName op name) = some e → attr ∉ e.attrs

/-- Whether an entity holds a value of an attribute only if one that has its name, or one that gets
it by an operation, did so before. -/
def HeldBefore (w : RuleSet) (op : Op) (attr : String) (e' : Entity) : Prop :=
  attr ∈ e'.attrs → ∃ e ∈ w.entities.rows, attr ∈ e.attrs ∧
    (e.name = e'.name ∨
      ∃ newSlots? newActions?, op = .modifyEntity e.name (some e'.name) newSlots? newActions?)

/-- Effects write values where there are some. -/
theorem preserves_heldBefore (w : RuleSet) (op : Op) (attr : String) (f : Effect) :
    f.Preserves (w.HeldBefore op attr) := by
  intro _ _ _ m _ _ hm _ _ _
  rw [HeldBefore, m.attrs_put, Entity.put_name]
  exact hm

/-- A checked slot is of an attribute that is defined. -/
theorem mem_names_of_checkSlots {slots slots' : List Slot} (h : w.checkSlots slots = .ok slots') :
    ∀ attr ∈ slots'.map Slot.attr, attr ∈ w.attributes.names := by
  intro attr hattr
  obtain ⟨s, hs, rfl⟩ := List.mem_map.mp hattr
  obtain ⟨a, ha, -⟩ := (fits_of_checkSlots h).2 s hs
  exact Table.mem_names_of_get? ha

/-- **One step.** If an attribute is missing before an operation and after it, whoever holds a value
of it did so before. -/
theorem Step.heldBefore {op : Op} {attr : String} (h : w.Step op w')
    (hw : attr ∉ w.attributes.names) (hw' : attr ∉ w'.attributes.names) :
    ∀ e' ∈ w'.entities.rows, w.HeldBefore op attr e' := by
  have hsame : ∀ e ∈ w.entities.rows, w.HeldBefore op attr e :=
    fun e he hattr ↦ ⟨e, he, hattr, .inl rfl⟩
  have heffects : ∀ a ∈ w.actions.rows, ∀ f ∈ a.effects, f.Preserves (w.HeldBefore op attr) :=
    fun _ _ f _ ↦ preserves_heldBefore w op attr f
  cases h with
  | kept | rename | defineAttribute _ | defineAction _ _ | defineEvent _ _ | modifyAction _ _ _
  | removeAttribute | removeAction | removeEvent | resetEvent => exact hsame
  | defineEntity _ hslots _ =>
    exact Table.forall_mem_push hsame fun hattr ↦
      absurd (mem_names_of_checkSlots hslots attr hattr) hw
  | @modifyAttribute name _ newKind? _ _ _ =>
    cases newKind? with
    | none => exact hsame
    | some k =>
      refine List.forall_mem_map.mpr fun e he hattr ↦ ?_
      rw [e.attrs_relabel name k] at hattr
      exact ⟨e, he, hattr, .inl rfl⟩
  | @modifyEntity name newName? _ _ _ old hold _ hslots _ =>
    refine Table.forall_mem_adjust hsame fun _ _ hattr ↦ ?_
    obtain ⟨hmem, hname⟩ := Table.get?_eq_some hold
    cases hslots with
    | some hslots => exact absurd (mem_names_of_checkSlots hslots attr hattr) hw
    | none =>
      -- the row goes on with its values, perhaps under another name
      refine ⟨old, hmem, hattr, ?_⟩
      cases newName? with
      | none => exact .inl rfl
      | some newName => exact .inr ⟨_, _, by rw [← hname]; rfl⟩
  | removeEntity => exact Table.forall_mem_without hsame
  | useAction ho => exact Table.forall_mem_putAll hsame (forall_mem_rehearse hsame heffects ho)
  | @startEvent _ e _ _ _ => exact forall_mem_played hsame heffects e
  | load hbuild =>
    -- entities that are loaded hold values of the attributes that are loaded with them
    have hsound := (Document.atRest_of_build hbuild).sound
    intro e he hattr
    obtain ⟨s, hs, rfl⟩ := List.mem_map.mp hattr
    obtain ⟨a, ha, -⟩ := (hsound.fits e he).slots s hs
    exact absurd (Table.mem_names_of_get? ha) hw'

section FormerName

variable {op : Op} {newName : String} {newSlots? : Option (List Slot)}
  {newActions? : Option (List String)}

theorem formerName_of_ok {row : Entity}
    (h : w.perform (modifyEntity name (some newName) newSlots? newActions?) = (.ok row, w')) :
    w.formerName (.modifyEntity name (some newName) newSlots? newActions?) n =
      if n = newName then name else n := by
  simp [formerName, h, Except.isOk, Except.toBool]

theorem formerName_of_error
    (h : w.perform (modifyEntity name (some newName) newSlots? newActions?) = (.error err, w')) :
    w.formerName (.modifyEntity name (some newName) newSlots? newActions?) n = n := by
  simp [formerName, h, Except.isOk, Except.toBool]

theorem formerName_of_ne
    (h : ∀ name newName newSlots? newActions?,
      op ≠ .modifyEntity name (some newName) newSlots? newActions?) :
    w.formerName op n = n := by
  unfold formerName
  split
  · exact absurd rfl (h _ _ _ _)
  · rfl

end FormerName

/-- Who holds a value of a missing attribute did so before, under the name it had then. -/
theorem exists_held {op : Op} {attr : String} {e' : Entity} (hw : attr ∉ w.attributes.names)
    (hw' : attr ∉ (w.after op).attributes.names) (he' : e' ∈ (w.after op).entities.rows)
    (hattr : attr ∈ e'.attrs) :
    ∃ e ∈ w.entities.rows, attr ∈ e.attrs ∧ e.name = w.formerName op e'.name := by
  obtain ⟨e, hmem, he, hname⟩ := (w.step_after op).heldBefore hw hw' e' he' hattr
  by_cases hop : ∀ name newName newSlots? newActions?,
      op ≠ .modifyEntity name (some newName) newSlots? newActions?
  · refine ⟨e, hmem, he, (hname.resolve_right ?_).trans (formerName_of_ne hop).symm⟩
    rintro ⟨newSlots?, newActions?, hc⟩
    exact hop _ _ _ _ hc
  push Not at hop
  obtain ⟨name, newName, newSlots?, newActions?, rfl⟩ := hop
  rcases hp : w.perform (modifyEntity name (some newName) newSlots? newActions?) with
    ⟨err | row, w'⟩
  · -- the change was refused, so the rows are those that were there
    have hkept : w.after (.modifyEntity name (some newName) newSlots? newActions?) = w :=
      (congrArg Prod.snd hp).trans (keeps_modifyEntity _ _ _ _ err w' hp)
    exact ⟨e', hkept ▸ he', hattr, (formerName_of_error hp).symm⟩
  · obtain ⟨_, _, -, hnew, -⟩ := perform_modifyEntity_eq_ok_iff.mp hp
    refine ⟨e, hmem, he, ?_⟩
    rw [formerName_of_ok hp]
    obtain hname | ⟨_, _, hop⟩ := hname
    · split
      · -- the new name was vacant, unless it is the old one
        rename_i hrenamed
        rw [hname, hrenamed]
        by_contra hne
        exact hnew newName rfl hne (hrenamed ▸ hname ▸ List.mem_map_of_mem hmem)
      · exact hname
    · obtain ⟨hold, hrenamed, -, -⟩ := Op.modifyEntity.inj hop
      rw [if_pos (Option.some.inj hrenamed).symm, hold]

/-- **No operation gives an entity a value** of an attribute that is missing before it and after
it. -/
theorem not_givesValue {op : Op} {attr : String} (hdistinct : w.entities.names.Nodup)
    (hw : attr ∉ w.attributes.names) (hw' : attr ∉ (w.after op).attributes.names) (n : String) :
    ¬w.GivesValue op attr n := by
  rintro ⟨e', he', hattr, hnone⟩
  obtain ⟨hmem', hname'⟩ := Table.get?_eq_some he'
  obtain ⟨e, hmem, he, hname⟩ := exists_held hw hw' hmem' hattr
  obtain rfl : e'.name = n := hname'
  exact hnone e (hname ▸ Table.get?_of_mem hdistinct hmem) he

/-- **Every run.** While the name of an attribute is missing, no operation gives an entity a value
under it. -/
theorem LaterWithout.not_givesValue {op : Op} (h : LaterWithout .attr name w w')
    (hw : w.Reachable) (hname : name ∉ w.attributes.names)
    (hop : op.Succeeds w' → name ∉ op.brings .attr) (n : String) : ¬w'.GivesValue op name n := by
  have hmissing := h.not_mem_namesOf hname
  exact RuleSet.not_givesValue ((h.reachable hw).distinct .entity) hmissing
    (not_mem_namesOf_after hmissing hop) n

/-! ## Uses that run into a removed name -/

/-- **Removed names are noticed.** A name of an entity or of an action was removed, and no operation
gave it to a row again. Then a use by that user, of that action or on that target fails and changes
nothing: for the user, for the action or for a target that is missing, or because the user does not
have the action. If it was the name of an attribute, no operation since gives an entity a value
under it, and a use fails and changes nothing if one of the effects is to change it in an entity
that holds no value under it. -/
theorem useAction_of_removed (h : w.Reachable) (hremoved : (Op.removing kind name).Succeeds w)
    (hsince : LaterWithout kind name (w.after (.removing kind name)) w') (user action : String)
    (targets : List String) :
    (kind = .entity → user = name →
        w'.perform (useAction user action targets) = (.error (.unknownEntity name), w')) ∧
      (kind = .action → action = name →
        ∃ err, w'.perform (useAction user action targets) = (.error err, w') ∧
          (err = .unknownEntity user ∨ err = .unknownAction name)) ∧
      (kind = .entity → name ∈ targets →
        ∃ err, w'.perform (useAction user action targets) = (.error err, w') ∧
          w'.Refuses user action targets err) ∧
      (kind = .attr →
        (∀ w₁ op n, LaterWithout .attr name (w.after (.removing .attr name)) w₁ →
            (op.Succeeds w₁ → name ∉ op.brings .attr) → ¬w₁.GivesValue op name n) ∧
          ∀ a f n e, w'.actions.get? action = some a → f ∈ a.effects → f.attr = name →
            f.Touches user targets n → w'.entities.get? n = some e → name ∉ e.attrs →
              ∃ err, w'.perform (useAction user action targets) = (.error err, w') ∧
                (w'.Refuses user action targets err ∨
                  (∃ before after, a.effects = before ++ f :: after ∧
                    DirectRun.run { a with effects := before } user targets w'.entities =
                      .error err) ∨
                  ∃ other, err = .unknownAttribute name (.entity other))) := by
  have hgone := not_mem_namesOf_removing (h.distinct kind) hremoved
  have hmissing : name ∉ w'.namesOf kind := hsince.not_mem_namesOf hgone
  refine ⟨?_, ?_, ?_, ?_⟩
  · rintro rfl rfl
    exact useAction_of_unknown_user hmissing
  · rintro rfl rfl
    exact useAction_of_unknown_action hmissing
  · rintro rfl htarget
    exact refuses_of_not_mem (.inr htarget) hmissing
  · rintro rfl
    refine ⟨?_, ?_⟩
    · intro w₁ op n hrun hop
      exact hrun.not_givesValue (.after _ h) hgone hop n
    · rintro a f n e ha hf rfl htouches he hattr
      exact useAction_eq_error_of_attr ha hf htouches he hattr

/-- An orchard. Ann counts the apples that she picks, and Bob does not; nobody is allowed a rest. -/
def orchard : RuleSet :=
  [.defineAttribute "apples" .number,
    .defineAction "pick" [⟨"apples", .user, .add, .literal (.number (.ofInt 1)), none⟩],
    .defineAction "rest" [⟨"apples", .user, .assign, .literal (.number (.ofInt 0)), none⟩],
    .defineEntity "Ann" [⟨"apples", .number, .number (.ofInt 3)⟩] ["pick"],
    .defineEntity "Bob" [] ["pick"], .defineEntity "Cid" [] []].foldl after (.empty "orchard")

theorem useAction_of_removed_orchard :
    (orchard.Reachable ∧ (Op.removing .entity "Cid").Succeeds orchard ∧
        (Op.removing .attr "apples").Succeeds orchard) ∧
      (((orchard.after (.removing .entity "Cid")).after (.rename "garden")).perform
          (useAction "Cid" "pick" []) =
        (.error (.unknownEntity "Cid"),
          (orchard.after (.removing .entity "Cid")).after (.rename "garden"))) ∧
      ¬(orchard.after (.removing .attr "apples")).GivesValue
          (.modifyEntity "Bob" (some "Ben") none none) "apples" "Ben" ∧
      ∃ err, (orchard.after (.removing .attr "apples")).perform (useAction "Bob" "pick" []) =
        (.error err, orchard.after (.removing .attr "apples")) := by
  have hreachable : orchard.Reachable := .foldl_after (.empty "orchard") _
  have hentity : (Op.removing .entity "Cid").Succeeds orchard := ⟨⟨"Cid", [], []⟩, rfl⟩
  have hattr : (Op.removing .attr "apples").Succeeds orchard := ⟨⟨"apples", .number⟩, rfl⟩
  have hsince : LaterWithout .entity "Cid" (orchard.after (.removing .entity "Cid"))
      ((orchard.after (.removing .entity "Cid")).after (.rename "garden")) :=
    .after (.rename "garden") .refl fun _ ↦ List.not_mem_nil
  obtain ⟨hgives, huse⟩ := (useAction_of_removed hreachable hattr .refl "Bob" "pick" []).2.2.2 rfl
  refine ⟨⟨hreachable, hentity, hattr⟩, ?_, ?_, ?_⟩
  · exact (useAction_of_removed hreachable hentity hsince "Cid" "pick" []).1 rfl rfl
  · exact hgives _ _ "Ben" .refl fun _ ↦ List.not_mem_nil
  · obtain ⟨err, herr, -⟩ := huse ⟨"pick", _⟩ ⟨"apples", .user, .add, _, none⟩ "Bob"
      ⟨"Bob", [], ["pick"]⟩ rfl List.mem_cons_self rfl rfl rfl List.not_mem_nil
    exact ⟨err, herr⟩

/-- A missing target goes unnoticed when the user does not have the action, and a missing attribute
goes unnoticed where an entity still holds a value under its name. -/
theorem useAction_orchard :
    (orchard.Reachable ∧ (Op.removing .entity "Cid").Succeeds orchard ∧
        (Op.removing .attr "apples").Succeeds orchard) ∧
      (orchard.after (.removing .entity "Cid")).perform (useAction "Ann" "rest" ["Cid"]) =
        (.error (.actionNotOwned "Ann" "rest"), orchard.after (.removing .entity "Cid")) ∧
      ∃ o, (orchard.after (.removing .attr "apples")).perform (useAction "Ann" "pick" []) =
          (.ok o, (orchard.after (.removing .attr "apples")).after (.useAction "Ann" "pick" [])) ∧
        o.changes = [⟨"Ann", "apples", .number (.ofInt 3), .number (.ofInt 4)⟩] := by
  refine ⟨⟨.foldl_after (.empty "orchard") _, ⟨⟨"Cid", [], []⟩, rfl⟩, ⟨⟨"apples", .number⟩, rfl⟩⟩,
    ?_, ?_⟩
  · rfl
  · have hchanges : (rehearse (orchard.after (.removing .attr "apples")) "Ann" "pick" []).map
        Outcome.changes = .ok [⟨"Ann", "apples", .number (.ofInt 3), .number (.ofInt 4)⟩] := by
      decide +kernel
    obtain ⟨o, ho, hchanges⟩ := map_eq_ok_iff.mp hchanges
    refine ⟨o, Prod.ext ?_ rfl, hchanges⟩
    rw [perform_useAction, ho]

end RuleSet

end Tabletop
