import Tabletop.Proofs.Action.Effect
import Tabletop.Proofs.RuleSet.Edit
import Tabletop.Proofs.RuleSet.Play
import Tabletop.Proofs.RuleSet.Sound

/-!
# Operations that keep rule sets sound

Defining rows, changing them under their names, using actions and running events keep a rule set
sound, and leave no event running. Removing an event does too, since nothing refers to events. The
kind of an attribute may change between the two kinds that hold numbers only.

An operation that fails leaves the rule set alone, so only success has to be looked at. An event
whose run fails is no exception: what its turns do are uses of actions, and those keep rule sets
sound one by one.
-/

namespace Tabletop

namespace RuleSet

/-- A sound rule set in which no event is being played. -/
structure AtRest (w : RuleSet) : Prop where
  /-- It is sound. -/
  sound : w.Sound
  /-- No event is being played. -/
  idle : w.running = none

variable {w w' : RuleSet} {name : String}

/-! ## Uses and runs keep rule sets sound -/

namespace Sound

/-- Working copies that a use ends with fit as the entities did. -/
theorem fits_rehearse (h : w.Sound) {user action : String} {targets : List String} {o : Outcome}
    (ho : w.rehearse user action targets = .ok o) : ∀ m ∈ o.cast.members, m.Fits w := by
  refine forall_mem_rehearse h.fits
    (fun a ha f hf u t amount m s after hm hamount hs hafter ↦ ?_) ho
  have hcheck : w.checkEffect f = .ok () := (checkEffects_eq_ok_iff.mp (h.effects a ha)).2 f hf
  obtain ⟨haccepts, hfinite⟩ :=
    (hm.slots s (List.mem_of_find?_eq_some hs)).writes hcheck hamount hafter
  exact hm.put hs haccepts hfinite

theorem useAction (h : w.Sound) (user action : String) (targets : List String) :
    (w.perform (useAction user action targets)).2.Sound := by
  rw [perform_useAction]
  cases ho : w.rehearse user action targets with
  | error err => exact h
  | ok o =>
    -- the copies go where they came from, so names stay and only values are new
    have hnames : (w.entities.putAll o.cast.members).names = w.entities.names := Table.names_putAll
    refine h.with_entities (by rw [Table.kind_putAll, h.kinds.2.2.1]) (hnames ▸ h.entities)
      (fun n hn ↦ hnames ▸ hn) (Table.forall_mem_putAll h.fits (h.fits_rehearse ho))

theorem playTurn (h : w.Sound) (turn : Turn) : (w.perform (playTurn turn)).2.Sound :=
  preserves_playTurn (P := Sound) (fun user action targets _ hw ↦ hw.useAction user action targets)
    turn w h

theorem runEvent (h : w.Sound) (e : Event) : (w.runEvent e).2.2.Sound :=
  playOn_induct (P := Sound) (fun _ turn hw ↦ hw.playTurn turn) h _

end Sound

/-! ## Operations keep rule sets at rest -/

namespace AtRest

theorem empty (name : String) : (RuleSet.empty name).AtRest := ⟨.empty name, rfl⟩

theorem defineAttribute (h : w.AtRest) {kind : Kind} {row : AttributeDef}
    (hok : w.perform (defineAttribute name kind) = (.ok row, w')) : w'.AtRest := by
  obtain ⟨hnew, -, rfl⟩ := perform_defineAttribute_eq_ok_iff.mp hok
  refine ⟨h.sound.with_attributes h.sound.kinds.1 (Table.nodup_names_push h.sound.attributes hnew)
    fun n a ha ↦ ?_, h.idle⟩
  rw [Table.get?_push_of_mem (Table.mem_names_of_get? ha), ha]

theorem defineAction (h : w.AtRest) {effects : List Effect} {row : Action}
    (hok : w.perform (defineAction name effects) = (.ok row, w')) : w'.AtRest := by
  obtain ⟨hnew, hcheck, -, rfl⟩ := perform_defineAction_eq_ok_iff.mp hok
  refine ⟨h.sound.with_actions h.sound.kinds.2.1 (Table.nodup_names_push h.sound.actions hnew)
    (fun n hn ↦ ?_) (Table.forall_mem_push h.sound.effects hcheck), h.idle⟩
  rw [Table.names_push]
  exact List.mem_append_left _ hn

theorem defineEntity (h : w.AtRest) {slots : List Slot} {actions : List String} {row : Entity}
    (hok : w.perform (defineEntity name slots actions) = (.ok row, w')) : w'.AtRest := by
  obtain ⟨slots', hnew, hslots, hactions, -, rfl⟩ := perform_defineEntity_eq_ok_iff.mp hok
  have hrow : (Entity.ofParts name slots' actions).Fits w := .ofParts hslots hactions
  refine ⟨h.sound.with_entities h.sound.kinds.2.2.1
    (Table.nodup_names_push h.sound.entities hnew)
    (fun n hn ↦ ?_) (Table.forall_mem_push h.sound.fits hrow), h.idle⟩
  rw [Table.names_push]
  exact List.mem_append_left _ hn

theorem defineEvent (h : w.AtRest) {participants : List String} {script : List Turn}
    {ending : EndCondition} {row : Event}
    (hok : w.perform (defineEvent name participants script ending) = (.ok row, w')) :
    w'.AtRest := by
  obtain ⟨hnew, hcheck, -, rfl⟩ := perform_defineEvent_eq_ok_iff.mp hok
  exact ⟨h.sound.with_events w.name w.running h.sound.kinds.2.2.2
    (Table.nodup_names_push h.sound.events hnew) (Table.forall_mem_push h.sound.scripts hcheck),
    h.idle⟩

theorem modifyAttribute (h : w.AtRest) {newName? : Option String} {newKind? : Option Kind}
    {row : AttributeDef} (hnewName : ∀ n ∈ newName?, n = name)
    (hnewKind : ∀ old, w.attributes.get? name = some old → ∀ kind ∈ newKind?, old.kind.Alike kind)
    (hok : w.perform (modifyAttribute name newName? newKind?) = (.ok row, w')) : w'.AtRest := by
  obtain ⟨old, hold, -, rfl, rfl⟩ := perform_modifyAttribute_eq_ok_iff.mp hok
  rw [eq_retype_of_keeps_name hold hnewName]
  cases newKind? with
  | none => exact h
  | some kind => exact ⟨h.sound.retype hold (hnewKind old hold kind rfl), h.idle⟩

theorem modifyAction (h : w.AtRest) {newName? : Option String}
    {newEffects? : Option (List Effect)} {row : Action}
    (hnewName : ∀ n ∈ newName?, n = name)
    (hok : w.perform (modifyAction name newName? newEffects?) = (.ok row, w')) : w'.AtRest := by
  obtain ⟨old, hold, -, heffects, rfl, rfl⟩ := perform_modifyAction_eq_ok_iff.mp hok
  have hnames : ∀ a : Action, Named.name a = name → newName?.getD old.name = name :=
    fun _ _ ↦ getD_eq (Table.get?_eq_some hold).2 hnewName
  refine ⟨h.sound.with_actions h.sound.kinds.2.1 ?_ ?_ ?_, h.idle⟩
  · rw [Table.names_adjust hnames]
    exact h.sound.actions
  · rw [Table.names_adjust hnames]
    exact fun _ hn ↦ hn
  · -- the check names the action in its errors only, so it passes under any name
    refine Table.forall_mem_adjust h.sound.effects fun _ _ ↦ checkEffects_eq_ok_iff.mpr ?_
    cases newEffects? with
    | none => exact checkEffects_eq_ok_iff.mp (h.sound.effects old (Table.get?_eq_some hold).1)
    | some effects => exact checkEffects_eq_ok_iff.mp (heffects effects rfl)

theorem modifyEntity (h : w.AtRest) {newName? : Option String} {newSlots? : Option (List Slot)}
    {newActions? : Option (List String)} {row : Entity}
    (hnewName : ∀ n ∈ newName?, n = name)
    (hok : w.perform (modifyEntity name newName? newSlots? newActions?) = (.ok row, w')) :
    w'.AtRest := by
  obtain ⟨old, slots?, hold, -, hslots, hactions, rfl, rfl⟩ :=
    perform_modifyEntity_eq_ok_iff.mp hok
  have hnames : ∀ e : Entity, Named.name e = name → newName?.getD old.name = name :=
    fun _ _ ↦ getD_eq (Table.get?_eq_some hold).2 hnewName
  have holdfits : old.Fits w := h.sound.fits old (Table.get?_eq_some hold).1
  refine ⟨h.sound.with_entities h.sound.kinds.2.2.1 ?_ ?_ ?_, h.idle⟩
  · rw [Table.names_adjust hnames]
    exact h.sound.entities
  · rw [Table.names_adjust hnames]
    exact fun _ hn ↦ hn
  · refine Table.forall_mem_adjust h.sound.fits fun _ _ ↦ ⟨?_, ?_, ?_, ?_⟩
    · cases hslots with
      | none => exact holdfits.nodup_slots
      | some hslots => exact (fits_of_checkSlots hslots).1
    · cases hslots with
      | none => exact holdfits.slots
      | some hslots => exact (fits_of_checkSlots hslots).2
    · cases newActions? with
      | none => exact holdfits.nodup_actions
      | some actions => exact nodup_eraseDups actions
    · cases newActions? with
      | none => exact holdfits.actions
      | some actions => exact fun a ha ↦ hactions actions rfl a (List.mem_eraseDups.mp ha)

theorem removeEvent (h : w.AtRest) {row : Event}
    (hok : w.perform (removeEvent name) = (.ok row, w')) : w'.AtRest := by
  obtain ⟨-, rfl⟩ := perform_removeEvent_eq_ok_iff.mp hok
  -- nothing refers to an event, so the events that are left are all there is to look at
  exact ⟨h.sound.with_events w.name w.running h.sound.kinds.2.2.2
    (Table.nodup_names_without h.sound.events) (Table.forall_mem_without h.sound.scripts), h.idle⟩

theorem useAction (h : w.AtRest) (user action : String) (targets : List String) :
    (w.perform (useAction user action targets)).2.AtRest := by
  refine ⟨h.sound.useAction user action targets, ?_⟩
  rw [perform_useAction]
  cases w.rehearse user action targets <;> exact h.idle

theorem startEvent (h : w.AtRest) (name : String) : (w.perform (startEvent name)).2.AtRest := by
  rw [perform_startEvent]
  cases hget : w.events.get? name with
  | none => exact h
  | some e =>
    rw [h.idle]
    dsimp only
    by_cases hfinished : e.status = .finished
    · rw [if_pos hfinished]
      exact h
    · rw [if_neg hfinished]
      have hsound := (h.sound.with_running (some e.name)).runEvent { e with status := .running }
      have hreset := runEvent_reset { w with running := some e.name } { e with status := .running }
      have hevents := runEvent_events { w with running := some e.name }
        { e with status := .running }
      generalize RuleSet.runEvent { w with running := some e.name } { e with status := .running } =
        run at hsound hreset hevents ⊢
      obtain ⟨result, e', w'⟩ := run
      refine ⟨hsound.with_events w'.name none hsound.kinds.2.2.2 ?_ ?_, rfl⟩
      · rw [Table.names_put]
        exact hsound.events
      · -- the event comes back with another progress, but with the script that was checked
        have hmem : e ∈ w'.events.rows :=
          (show w'.events = w.events from hevents) ▸ (Table.get?_eq_some hget).1
        obtain ⟨-, hparticipants, hscript, hending⟩ := Event.reset_eq_reset_iff.mp hreset
        refine Table.forall_mem_put hsound.scripts ?_
        change w'.checkEvent e'.participants e'.script e'.ending = .ok ()
        rw [hparticipants, hscript, hending]
        exact hsound.scripts e hmem

theorem resetEvent (h : w.AtRest) {u : Unit}
    (hok : w.perform (resetEvent name) = (.ok u, w')) : w'.AtRest := by
  obtain ⟨-, rfl⟩ := perform_resetEvent_eq_ok_iff.mp hok
  refine ⟨h.sound.with_events w.name w.running h.sound.kinds.2.2.2 ?_ ?_, h.idle⟩
  · have hnames : ∀ e : Event, Named.name e = name → Named.name e.reset = name := fun _ he ↦ he
    rw [Table.names_adjust hnames]
    exact h.sound.events
  · exact Table.forall_mem_adjust h.sound.scripts fun e he ↦
      h.sound.scripts e (Table.get?_eq_some he).1

end AtRest

end RuleSet

end Tabletop
