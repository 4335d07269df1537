import Tabletop.Proofs.Document.Normal
import Tabletop.Proofs.RuleSet.Step

/-!
# The names in the tables

Operations ask for a vacant name before they put a row in or rename one, so no two rows of a table
ever have one name (`Reachable.distinct`). With that, a name that is removed is gone. It comes back
when a later operation gives it to a row again, by a definition, a renaming or a document, and in no
other way (`not_mem_namesOf_after`).
-/

namespace Tabletop

/-! ## Unique names -/

namespace RuleSet

variable {w w' : RuleSet} {name : String}

/-- The names of the rows of a kind. -/
def namesOf (w : RuleSet) : RowKind → List String
  | .attr => w.attributes.names
  | .action => w.actions.names
  | .entity => w.entities.names
  | .event => w.events.names

/-- Rows that are put in their places have the names that were there. -/
theorem namesOf_putAll (ms : List Entity) (es : List Event) (running : Option String)
    (kind : RowKind) :
    namesOf { w with entities := w.entities.putAll ms, events := w.events.putAll es, running }
      kind = w.namesOf kind := by
  cases kind with
  | entity | event => exact Table.names_putAll
  | attr | action => rfl

end RuleSet

/-! ## What operations do to names -/

/-- The names of the rows of a kind. -/
def Document.namesOf (d : Document) : RowKind → List String
  | .attr => d.attributes.map AttributeRow.name
  | .action => d.actions.map ActionRow.name
  | .entity => d.entities.map EntityRow.name
  | .event => d.events.map EventRow.name

namespace Op

/-- The names of a kind that an operation gives to rows, if it succeeds. -/
def brings : Op → RowKind → List String
  | defineAttribute name _, .attr => [name]
  | defineAction name _, .action => [name]
  | defineEntity name _ _, .entity => [name]
  | defineEvent name _ _ _, .event => [name]
  | modifyAttribute _ newName? _, .attr => newName?.toList
  | modifyAction _ newName? _, .action => newName?.toList
  | modifyEntity _ newName? _ _, .entity => newName?.toList
  | load d, kind => d.namesOf kind
  | _, _ => []

/-- Whether an operation succeeds on a rule set. -/
def Succeeds (op : Op) (w : RuleSet) : Prop := ∃ answer, (w.perform op.edit).1 = .ok answer

end Op

/-- What may become of names: if they were unique they stay so, and none is new but some. -/
structure Turns (names names' new : List String) : Prop where
  /-- Unique names stay unique. -/
  nodup : names.Nodup → names'.Nodup
  /-- Every name was there or is one of the new ones. -/
  mem : ∀ n ∈ names', n ∈ names ∨ n ∈ new

namespace Turns

variable {α : Type} [Named α] {t : Table α} {row old : α} {name : String}
  {names names' new : List String} {newName? : Option String}

theorem of_eq (h : names' = names) : Turns names names' new := by
  subst h
  exact ⟨id, fun _ ↦ .inl⟩

theorem push (h : Named.name row ∉ t.names) (hnew : Named.name row = name) :
    Turns t.names (t.push row).names [name] := by
  refine ⟨fun ht ↦ Table.nodup_names_push ht h, fun n hn ↦ ?_⟩
  rw [Table.names_push, hnew] at hn
  exact List.mem_append.mp hn

theorem adjust (hold : t.get? name = some old) (h : ∀ n ∈ newName?, n ≠ name → n ∉ t.names)
    (hrow : Named.name row = newName?.getD (Named.name old)) :
    Turns t.names (t.adjust name fun _ ↦ row).names newName?.toList := by
  obtain ⟨hmem, hname⟩ := Table.get?_eq_some hold
  cases newName? with
  | none =>
    refine ⟨fun ht ↦ Table.nodup_names_adjust ht fun hne ↦ absurd (hrow.trans hname) hne,
      fun n hn ↦ .inl ?_⟩
    obtain hn | rfl := Table.mem_names_adjust hn
    · exact hn
    · rw [hrow]
      exact List.mem_map_of_mem hmem
  | some newName =>
    replace hrow : Named.name row = newName := hrow
    refine ⟨fun ht ↦ Table.nodup_names_adjust ht (hrow ▸ h newName rfl), fun n hn ↦ ?_⟩
    obtain hn | rfl := Table.mem_names_adjust hn
    · exact .inl hn
    · exact .inr (List.mem_singleton.mpr hrow)

theorem without : Turns t.names (t.without name).names new := by
  refine ⟨Table.nodup_names_without, fun n hn ↦ .inl ?_⟩
  rw [Table.names_without] at hn
  exact List.mem_of_mem_erase hn

end Turns

namespace RuleSet

variable {w w' : RuleSet} {name : String} {kind : RowKind}

theorem namesOf_document (w : RuleSet) (kind : RowKind) :
    w.document.namesOf kind = w.namesOf kind := by
  cases kind <;> exact List.map_map.trans rfl

theorem namesOf_normal (d : Document) (kind : RowKind) :
    d.normal.namesOf kind = d.namesOf kind := by
  cases kind with
  | attr | event => rfl
  | action | entity => exact List.map_map.trans rfl

/-- What is built has the names of its document, and they are unique. -/
theorem turns_build {d : Document} (h : d.build = .ok w) (names : List String) (kind : RowKind) :
    Turns names (w.namesOf kind) (d.namesOf kind) := by
  have hnames : w.namesOf kind = d.namesOf kind := by
    rw [← namesOf_document, Document.document_of_build h, namesOf_normal]
  have hsound := (Document.atRest_of_build h).sound
  refine ⟨fun _ ↦ ?_, fun n hn ↦ .inr (hnames ▸ hn)⟩
  cases kind with
  | attr => exact hsound.attributes
  | action => exact hsound.actions
  | entity => exact hsound.entities
  | event => exact hsound.events

/-- **One step.** An operation keeps the names of a table unique, and brings none but those it gives
to rows. -/
theorem Step.turns {op : Op} (h : w.Step op w') (kind : RowKind) :
    Turns (w.namesOf kind) (w'.namesOf kind) (op.brings kind) := by
  cases h with
  | kept | rename => exact .of_eq rfl
  | defineAttribute hnew =>
    cases kind with
    | attr => exact .push hnew rfl
    | _ => exact .of_eq rfl
  | defineAction hnew _ =>
    cases kind with
    | action => exact .push hnew rfl
    | _ => exact .of_eq rfl
  | defineEntity hnew _ _ =>
    cases kind with
    | entity => exact .push hnew rfl
    | _ => exact .of_eq rfl
  | defineEvent hnew _ =>
    cases kind with
    | event => exact .push hnew rfl
    | _ => exact .of_eq rfl
  | @modifyAttribute _ _ newKind? _ hold hnew =>
    cases kind with
    | attr => exact .adjust hold hnew rfl
    | entity =>
      refine .of_eq ?_
      cases newKind? with
      | none => rfl
      | some k => exact Table.names_map fun _ ↦ rfl
    | action | event => exact .of_eq rfl
  | modifyAction hold hnew _ =>
    cases kind with
    | action => exact .adjust hold hnew rfl
    | _ => exact .of_eq rfl
  | modifyEntity hold hnew _ _ =>
    cases kind with
    | entity => exact .adjust hold hnew rfl
    | _ => exact .of_eq rfl
  | removeAttribute =>
    cases kind with
    | attr => exact .without
    | _ => exact .of_eq rfl
  | removeAction =>
    cases kind with
    | action => exact .without
    | _ => exact .of_eq rfl
  | removeEntity =>
    cases kind with
    | entity => exact .without
    | _ => exact .of_eq rfl
  | removeEvent =>
    cases kind with
    | event => exact .without
    | _ => exact .of_eq rfl
  | useAction _ => exact .of_eq (namesOf_putAll _ [] w.running kind)
  | @startEvent _ e _ _ _ =>
    obtain ⟨ms, e', hframe, -⟩ := w.played_frame e
    rw [hframe]
    exact .of_eq (namesOf_putAll ms [e'] none kind)
  | resetEvent =>
    cases kind with
    | event => exact .of_eq (Table.names_adjust fun _ he ↦ he)
    | _ => exact .of_eq rfl
  | load hbuild => exact turns_build hbuild _ kind

/-- **Every run.** No two rows of a table have one name, whatever operations led to the rule set. -/
theorem Reachable.distinct (h : w.Reachable) (kind : RowKind) : (w.namesOf kind).Nodup := by
  induction h with
  | empty name => cases kind <;> exact List.nodup_nil
  | after op _ ih => exact ((step_after _ op).turns kind).nodup ih

/-- A name that no row has stays so until an operation that succeeds gives it to one. -/
theorem not_mem_namesOf_after {op : Op} (h : name ∉ w.namesOf kind)
    (hop : op.Succeeds w → name ∉ op.brings kind) : name ∉ (w.after op).namesOf kind := by
  intro hmem
  have hbrought := (((w.step_after op).turns kind).mem name hmem).resolve_left h
  by_cases hruns : op.RunsEvent
  · cases op with
    | startEvent event => exact absurd hbrought List.not_mem_nil
    | _ => exact hruns.elim
  · rcases hp : w.perform op.edit with ⟨err | answer, w'⟩
    · have hkept : w.after op = w := (congrArg Prod.snd hp).trans (keeps_edit hruns err w' hp)
      exact h (hkept ▸ hmem)
    · exact hop ⟨answer, congrArg Prod.fst hp⟩ hbrought

end RuleSet

end Tabletop
