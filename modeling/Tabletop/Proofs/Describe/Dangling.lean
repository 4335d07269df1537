import Tabletop.Describe.Summary
import Tabletop.Proofs.RuleSet.Names

/-!
# What the list of dangling references shows

Rows mention other rows by name in a dozen places. The list of dangling references looks at four of
them: the attributes that effects change, the attributes and the actions of entities, and the
participants of events. Of these it shows exactly the mentions that do not resolve, in order
(`map_mention_dangling`).

Names further inside a definition are not looked at: the source of an amount, the attribute of a
condition, the names in a turn, the attribute of an end condition. So an empty list says nothing
about them (`dangling_workshop`), and the rule set may be one that cannot be loaded again. One name
inside is covered all the same: the participant of an end condition, which every event that
operations lead to has among its participants (`Reachable.endsAmong`).
-/

namespace Tabletop

/-! ## Mentions -/

/-- A name that a row mentions, and what it is the name of. -/
structure Mention where
  /-- What it is the name of. -/
  kind : RowKind
  /-- The name. -/
  name : String
deriving DecidableEq, Repr

/-- Whether there is a row of the name that is mentioned. -/
def RuleSet.Resolves (w : RuleSet) (m : Mention) : Prop := m.name ∈ w.namesOf m.kind

instance (w : RuleSet) (m : Mention) : Decidable (w.Resolves m) :=
  inferInstanceAs (Decidable (m.name ∈ w.namesOf m.kind))

/-- The attribute that an amount is drawn from. -/
def Amount.mentions : Amount → List Mention
  | literal _ => []
  | drawn d => [⟨.attr, d.source⟩]

/-- The names inside an effect, next to the attribute it changes. -/
def Effect.inside (e : Effect) : List Mention :=
  e.amount.mentions ++ e.condition.toList.map fun c ↦ ⟨.attr, c.attr⟩

/-- The names in a turn. -/
def Turn.mentions : Turn → List Mention
  | act user action targets => ⟨.entity, user⟩ :: ⟨.action, action⟩ :: targets.map (⟨.entity, ·⟩)
  | say speaker _ => [⟨.entity, speaker⟩]

/-- The participant that an end condition is about. -/
def EndCondition.participant? : EndCondition → Option String
  | turnCount _ _ => none
  | participant name _ _ _ => some name

/-- The attribute that an end condition is about. -/
def EndCondition.attr? : EndCondition → Option String
  | turnCount _ _ => none
  | participant _ attr _ _ => some attr

/-- The attributes that an action changes. -/
def Action.surface (a : Action) : List Mention := a.effects.map fun f ↦ ⟨.attr, f.attr⟩

/-- The attributes and the actions that an entity has. -/
def Entity.surface (e : Entity) : List Mention :=
  e.slots.map (fun s ↦ ⟨.attr, s.attr⟩) ++ e.actions.map (⟨.action, ·⟩)

/-- The entities that take part in an event. -/
def Event.surface (e : Event) : List Mention := e.participants.map (⟨.entity, ·⟩)

/-- The participant that an event's end condition is about. -/
def Event.awaited (e : Event) : List Mention := e.ending.participant?.toList.map (⟨.entity, ·⟩)

/-- The names inside an event: those in its turns, and the attribute of its end condition. -/
def Event.inside (e : Event) : List Mention :=
  e.script.flatMap Turn.mentions ++ e.ending.attr?.toList.map (⟨.attr, ·⟩)

namespace RuleSet

/-- The names at the surface of rows: attributes that are changed or held, actions that are listed,
entities that take part. -/
def surface (w : RuleSet) : List Mention :=
  w.actions.rows.flatMap Action.surface ++ w.entities.rows.flatMap Entity.surface ++
    w.events.rows.flatMap Event.surface

/-- The participants that end conditions are about. -/
def awaited (w : RuleSet) : List Mention := w.events.rows.flatMap Event.awaited

/-- The names further inside: sources of amounts, attributes of conditions, all names in turns,
attributes of end conditions. -/
def inside (w : RuleSet) : List Mention :=
  (w.actions.rows.flatMap fun a ↦ a.effects.flatMap Effect.inside) ++
    w.events.rows.flatMap Event.inside

/-- All names that the rows of a rule set mention. -/
def mentions (w : RuleSet) : List Mention := w.surface ++ w.awaited ++ w.inside

end RuleSet

/-! ## What is shown -/

/-- The name that a dangling reference is about. -/
def Dangling.mention : Dangling → Mention
  | changed _ a | held _ a => ⟨.attr, a⟩
  | listed _ action => ⟨.action, action⟩
  | included _ entity => ⟨.entity, entity⟩

namespace RuleSet

variable {w w' : RuleSet}

/-- One place that is looked at: what does not resolve is what the table does not contain. -/
theorem map_filter_contains {α β : Type} [Named α] (kind : RowKind) {t : Table α}
    (ht : t.names = w.namesOf kind) (key : β → String) (as : List β) :
    (as.filter fun b ↦ !t.contains (key b)).map (fun b ↦ (⟨kind, key b⟩ : Mention)) =
      (as.map fun b ↦ ⟨kind, key b⟩).filter (¬w.Resolves ·) := by
  rw [List.filter_map]
  refine congrArg (List.map _) (List.filter_congr fun b _ ↦ ?_)
  have hiff : t.contains (key b) = true ↔ w.Resolves ⟨kind, key b⟩ := by
    rw [Table.contains_iff, ht]
    rfl
  simp [← hiff]

theorem map_mention_danglingInAction (a : Action) :
    (w.danglingInAction a).map Dangling.mention =
      a.surface.filter (¬w.Resolves ·) := by
  rw [danglingInAction, List.map_map]
  exact map_filter_contains .attr (t := w.attributes) rfl Effect.attr a.effects

theorem map_mention_danglingInEntity (e : Entity) :
    (w.danglingInEntity e).map Dangling.mention =
      e.surface.filter (¬w.Resolves ·) := by
  rw [danglingInEntity, Entity.surface, List.map_append, List.map_map, List.map_map,
    List.filter_append]
  exact congrArg₂ (· ++ ·)
    (map_filter_contains .attr (t := w.attributes) rfl Slot.attr e.slots)
    (map_filter_contains .action (t := w.actions) rfl id e.actions)

theorem map_mention_danglingInEvent (e : Event) :
    (w.danglingInEvent e).map Dangling.mention =
      e.surface.filter (¬w.Resolves ·) := by
  rw [danglingInEvent, List.map_map]
  exact map_filter_contains .entity (t := w.entities) rfl id e.participants

/-- **What the list shows.** The dangling references are those names at the surface that do not
resolve, in the order of the rows. -/
theorem map_mention_dangling (w : RuleSet) :
    w.dangling.map Dangling.mention = w.surface.filter (¬w.Resolves ·) := by
  simp only [dangling, surface, List.map_append, List.map_flatMap, List.filter_append,
    List.filter_flatMap, map_mention_danglingInAction, map_mention_danglingInEntity,
    map_mention_danglingInEvent]

theorem dangling_eq_nil : w.dangling = [] ↔ ∀ m ∈ w.surface, w.Resolves m := by
  rw [← List.map_eq_nil_iff (f := Dangling.mention), map_mention_dangling]
  simp [List.filter_eq_nil_iff]

end RuleSet

/-! ## End conditions are about participants -/

/-- Whether the end condition of an event is about a participant, if it is about an entity. -/
def Event.EndsAmong (e : Event) : Prop := ∀ name ∈ e.ending.participant?, name ∈ e.participants

namespace Event

variable {w : RuleSet} {e e' : Event}

theorem endsAmong_of_reset (h : e.reset = e'.reset) (he' : e'.EndsAmong) : e.EndsAmong := by
  obtain ⟨-, hparticipants, -, hending⟩ := reset_eq_reset_iff.mp h
  rw [EndsAmong, hparticipants, hending]
  exact he'

theorem endsAmong_of_check (h : w.checkEvent e.participants e.script e.ending = .ok ()) :
    e.EndsAmong := by
  obtain ⟨-, -, hending⟩ := RuleSet.checkEvent_eq_ok_iff.mp h
  rw [RuleSet.checkEnding_eq_ok_iff] at hending
  intro name hname
  cases he : e.ending with
  | turnCount comparator count =>
    rw [he] at hname
    exact absurd hname (Option.not_mem_none name)
  | participant name' attr comparator value =>
    rw [he] at hname hending
    obtain rfl : name' = name := Option.some.inj hname
    exact List.contains_iff_mem.mp hending.1

end Event

namespace RuleSet

variable {w w' : RuleSet}

/-- **Every run.** Whatever operations led to a rule set, its events wait for participants only:
events are checked when they are defined, and later only their progress changes. -/
theorem Reachable.endsAmong (h : w.Reachable) : ∀ e ∈ w.events.rows, e.EndsAmong := by
  induction h with
  | empty name => exact fun e he ↦ absurd he List.not_mem_nil
  | after op _ ih =>
    exact (step_after _ op).forall_events ih (fun _ _ ↦ Event.endsAmong_of_reset)
      fun _ _ ↦ Event.endsAmong_of_check

/-- So what they wait for stands at the surface as well. -/
theorem awaited_subset (h : ∀ e ∈ w.events.rows, e.EndsAmong) : w.awaited ⊆ w.surface := by
  intro m hm
  obtain ⟨e, he, hm⟩ := List.mem_flatMap.mp hm
  obtain ⟨name, hname, rfl⟩ := List.mem_map.mp hm
  have hparticipant : name ∈ e.participants := h e he name (by simpa using hname)
  refine List.mem_append_right _ (List.mem_flatMap.mpr ⟨e, he, ?_⟩)
  exact List.mem_map_of_mem hparticipant

/-! ## What an empty list says -/

theorem forall_mem_mentions {P : Mention → Prop} :
    (∀ m ∈ w.mentions, P m) ↔
      (∀ m ∈ w.surface, P m) ∧ (∀ m ∈ w.awaited, P m) ∧ ∀ m ∈ w.inside, P m := by
  rw [mentions, List.forall_mem_append, List.forall_mem_append, and_assoc]

/-- **What an empty list says.** The list is empty exactly when all names at the surface of rows
resolve, and then the participants that end conditions are about do too. It is empty exactly when
all names resolve, if those further inside are known to. -/
theorem dangling_eq_nil_iff (h : w.Reachable) :
    (w.dangling = [] ↔ ∀ m ∈ w.surface ++ w.awaited, w.Resolves m) ∧
      ((∀ m ∈ w.inside, w.Resolves m) → (w.dangling = [] ↔ ∀ m ∈ w.mentions, w.Resolves m)) := by
  have hawaited : (∀ m ∈ w.surface, w.Resolves m) → ∀ m ∈ w.awaited, w.Resolves m :=
    fun hsurface m hm ↦ hsurface m (awaited_subset h.endsAmong hm)
  refine ⟨?_, fun hinside ↦ ?_⟩
  · rw [dangling_eq_nil, List.forall_mem_append]
    exact ⟨fun hsurface ↦ ⟨hsurface, hawaited hsurface⟩, And.left⟩
  · rw [dangling_eq_nil, forall_mem_mentions]
    exact ⟨fun hsurface ↦ ⟨hsurface, hawaited hsurface, hinside⟩, And.left⟩

/-- A workshop where walls are built, as high as the one who builds is strong, until Ann has one. -/
def workshop : RuleSet :=
  [.defineAttribute "strength" .number, .defineAttribute "wall" .number,
    .defineAction "build"
      [⟨"wall", .user, .add, .drawn ⟨"strength", .user, .multiply, .ofInt 2, none⟩, none⟩],
    .defineEntity "Ann" [⟨"wall", .number, .number (.ofInt 0)⟩] ["build"],
    .defineEvent "work" ["Ann"] [.act "Ann" "build" []]
      (.participant "Ann" "wall" .gt (.number (.ofInt 0)))].foldl after (.empty "workshop")

theorem dangling_eq_nil_iff_workshop :
    (workshop.Reachable ∧ workshop.dangling = [] ∧ ∀ m ∈ workshop.inside, workshop.Resolves m) ∧
      (∀ m ∈ workshop.surface ++ workshop.awaited, workshop.Resolves m) ∧
      ∀ m ∈ workshop.mentions, workshop.Resolves m := by
  have hreachable : workshop.Reachable := .foldl_after (.empty "workshop") _
  have hnil : workshop.dangling = [] := by decide +kernel
  have hinside : ∀ m ∈ workshop.inside, workshop.Resolves m := by decide +kernel
  obtain ⟨hsurface, hall⟩ := dangling_eq_nil_iff hreachable
  exact ⟨⟨hreachable, hnil, hinside⟩, hsurface.mp hnil, (hall hinside).mp hnil⟩

/-- Without strength nothing can be built, and the rule set cannot be loaded again, but the list of
dangling references stays empty. -/
theorem dangling_workshop :
    (workshop.after (.removeAttribute "strength")).Reachable ∧
      (workshop.after (.removeAttribute "strength")).dangling = [] ∧
      ⟨.attr, "strength"⟩ ∈ (workshop.after (.removeAttribute "strength")).mentions ∧
      ¬(workshop.after (.removeAttribute "strength")).Resolves ⟨.attr, "strength"⟩ ∧
      (workshop.after (.removeAttribute "strength")).document.build =
        .error (.unknownAttribute "strength" .ruleSet) := by
  refine ⟨.after _ (.foldl_after (.empty "workshop") _), ?_, ?_, ?_, ?_⟩ <;> decide +kernel

/-! ## What can be loaded has no dangling reference -/

theorem resolves_of_checkEffect {f : Effect} (h : w.checkEffect f = .ok ()) :
    w.Resolves ⟨.attr, f.attr⟩ ∧ ∀ m ∈ f.inside, w.Resolves m := by
  obtain ⟨target, htarget, -, hamount, hcondition⟩ := checkEffect_eq_ok_iff.mp h
  refine ⟨Table.mem_names_of_get? htarget, List.forall_mem_append.mpr ⟨fun m hm ↦ ?_, ?_⟩⟩
  · cases ha : f.amount with
    | literal value =>
      rw [ha] at hm
      exact absurd hm List.not_mem_nil
    | drawn d =>
      rw [ha] at hm hamount
      obtain rfl := List.mem_singleton.mp hm
      rw [checkAmount, bind_eq_ok_iff] at hamount
      obtain ⟨source, hsource, -⟩ := hamount
      exact Table.mem_names_of_get? (defined_eq_ok_iff.mp hsource)
  · intro m hm
    obtain ⟨c, hc, rfl⟩ := List.mem_map.mp hm
    obtain ⟨⟨a, ha⟩, -⟩ := checkCondition_eq_ok_iff.mp (hcondition c (by simpa using hc))
    exact Table.mem_names_of_get? ha

theorem resolves_of_checkTurn {turn : Turn} (h : w.checkTurn turn = .ok ()) :
    ∀ m ∈ turn.mentions, w.Resolves m := by
  rw [checkTurn_eq_ok_iff] at h
  cases turn with
  | act user action targets =>
    obtain ⟨huser, haction, htargets⟩ := h
    refine List.forall_mem_cons.mpr ⟨huser, List.forall_mem_cons.mpr ⟨haction, ?_⟩⟩
    exact List.forall_mem_map.mpr htargets
  | say speaker text => exact fun m hm ↦ List.mem_singleton.mp hm ▸ h

theorem resolves_of_checkEvent {e : Event}
    (h : w.checkEvent e.participants e.script e.ending = .ok ()) :
    (∀ m ∈ e.surface, w.Resolves m) ∧ ∀ m ∈ e.inside, w.Resolves m := by
  obtain ⟨hparticipants, hscript, hending⟩ := checkEvent_eq_ok_iff.mp h
  refine ⟨List.forall_mem_map.mpr hparticipants, List.forall_mem_append.mpr ⟨?_, ?_⟩⟩
  · intro m hm
    obtain ⟨turn, hturn, hm⟩ := List.mem_flatMap.mp hm
    exact resolves_of_checkTurn (hscript turn hturn) m hm
  · rw [checkEnding_eq_ok_iff] at hending
    cases he : e.ending with
    | turnCount comparator count => exact fun m hm ↦ absurd hm List.not_mem_nil
    | participant name attr comparator value =>
      rw [he] at hending
      obtain ⟨-, -, ⟨a, ha⟩, -⟩ := hending
      exact fun m hm ↦ List.mem_singleton.mp hm ▸ Table.mem_names_of_get? ha

theorem resolves_of_fits {e : Entity} (h : e.Fits w) : ∀ m ∈ e.surface, w.Resolves m := by
  refine List.forall_mem_append.mpr ⟨List.forall_mem_map.mpr fun s hs ↦ ?_,
    List.forall_mem_map.mpr h.actions⟩
  obtain ⟨a, ha, -⟩ := h.slots s hs
  exact Table.mem_names_of_get? ha

/-- **In a rule set that a document describes, every name resolves**, and nothing dangles. -/
theorem resolves_of_build {d : Document} (h : d.build = .ok w) :
    (∀ m ∈ w.mentions, w.Resolves m) ∧ w.dangling = [] := by
  have hsound := (Document.atRest_of_build h).sound
  have hevents := fun e he ↦ resolves_of_checkEvent (hsound.scripts e he)
  have heffects := fun a ha f hf ↦
    resolves_of_checkEffect ((checkEffects_eq_ok_iff.mp (hsound.effects a ha)).2 f hf)
  have hsurface : ∀ m ∈ w.surface, w.Resolves m := by
    refine List.forall_mem_append.mpr ⟨List.forall_mem_append.mpr ⟨?_, ?_⟩, ?_⟩
    · refine List.forall_mem_flatMap.mpr fun a ha ↦ List.forall_mem_map.mpr fun f hf ↦ ?_
      exact (heffects a ha f hf).1
    · exact List.forall_mem_flatMap.mpr fun e he ↦ resolves_of_fits (hsound.fits e he)
    · exact List.forall_mem_flatMap.mpr fun e he ↦ (hevents e he).1
  have hinside : ∀ m ∈ w.inside, w.Resolves m := by
    refine List.forall_mem_append.mpr ⟨?_, ?_⟩
    · refine List.forall_mem_flatMap.mpr fun a ha ↦ List.forall_mem_flatMap.mpr fun f hf ↦ ?_
      exact (heffects a ha f hf).2
    · exact List.forall_mem_flatMap.mpr fun e he ↦ (hevents e he).2
  have hawaited : w.awaited ⊆ w.surface :=
    awaited_subset fun e he ↦ Event.endsAmong_of_check (hsound.scripts e he)
  exact ⟨forall_mem_mentions.mpr ⟨hsurface, fun m hm ↦ hsurface m (hawaited hm), hinside⟩,
    dangling_eq_nil.mpr hsurface⟩

end RuleSet

end Tabletop
