import Tabletop.Proofs.RuleSet.Make
import Tabletop.Proofs.RuleSet.Unique

/-!
# Changing a row is defining it anew, in its place

An action or an entity that is changed in all its parts might as well be removed and defined again,
under its name or another one. Both ways make the same row by the same checks, and fail with the
same error if they fail; the row keeps its place when it is changed, and goes to the end when it is
defined (`modify_eq_redefine`).

What differs is how they ask for the name. A change asks for a vacant one unless it is the one that
the row has. A definition always asks for a vacant one, and the name of the row that was taken out
is vacant by then (`Table.ensureVacant_without`); but only because names are unique, for otherwise
another row could have it.

Removing comes first, so a definition that is refused has lost the row. A change that is refused has
lost nothing.
-/

namespace Tabletop

/-! ## Tables -/

namespace Table

variable {α : Type} [Named α] {t : Table α} {name n : String} {newName? : Option String}
  {make : Except RuleError α}

theorem contains_without_of_ne (h : n ≠ name) : (t.without name).contains n = t.contains n := by
  rw [Bool.eq_iff_iff, contains_iff, contains_iff, names_without, List.mem_erase_of_ne h]

/-- **The names a row may change to** are those that are vacant once it is taken out. -/
theorem ensureVacant_without (ht : t.names.Nodup) (name : String) (newName? : Option String) :
    (t.without name).ensureVacant (newName?.getD name) = t.ensureRenamable name newName? := by
  have hown : (t.without name).ensureVacant name = .ok () :=
    ensureVacant_eq_ok_iff.mpr (not_mem_names_without ht)
  cases newName? with
  | none => exact hown
  | some n =>
    rw [Option.getD_some, ensureRenamable]
    by_cases hn : n = name
    · rw [hn, Option.filter_some_neg (by simp), hown]
      rfl
    · rw [Option.filter_some_pos (by simpa using hn), ensureVacant, contains_without_of_ne hn]
      rfl

/-- Puts a row that is made by checks in the place of the row of a name. -/
def redefine (t : Table α) (name : String) (newName? : Option String)
    (make : Except RuleError α) : Except RuleError (α × Table α) := do
  discard (t.get name)
  t.ensureRenamable name newName?
  let row ← make
  return (row, t.adjust name fun _ ↦ row)

/-- Takes out the row of a name and puts one that is made by checks at the end. -/
def replaceLast (t : Table α) (name : String) (newName? : Option String)
    (make : Except RuleError α) : Except RuleError (α × Table α) := do
  let (_, t') ← t.remove name
  t'.define (newName?.getD name) make

/-- Two tables with a row in the place of the one of a name, and at the end. -/
inductive InPlace (t : Table α) (name : String) : α × Table α → α × Table α → Prop where
  /-- The rows before and after are as they were. -/
  | intro {before after : List α} {old row : α} :
    t.rows = before ++ old :: after → Named.name old = name →
    InPlace t name (row, { t with rows := before ++ row :: after })
      (row, { t with rows := before ++ after ++ [row] })

theorem inPlace_of_vacant {row old : α} {t' : Table α} (ht : t.names.Nodup)
    (hold : t.get? name = some old) (h : (t.without name).insert row = .ok t') :
    t.InPlace name (row, t.adjust name fun _ ↦ row) (row, t') := by
  obtain ⟨hmem, rfl⟩ := get?_eq_some hold
  obtain ⟨before, after, hrows⟩ := List.append_of_mem hmem
  have hreaches := byName_of_nodup ht before old after hrows
  have hwithout : t.without (Named.name old) = { t with rows := before ++ after } :=
    (remove_eq_ok_iff.mp hreaches.remove).2.symm
  obtain ⟨-, rfl⟩ := insert_eq_ok_iff.mp h
  rw [hreaches.adjust, hwithout]
  exact .intro hrows rfl

/-- **In its place or at the end.** -/
theorem agree_redefine (ht : t.names.Nodup)
    (hmake : ∀ row, make = .ok row → Named.name row = newName?.getD name) :
    Agree (t.InPlace name) (t.redefine name newName? make) (t.replaceLast name newName? make) := by
  rw [redefine, replaceLast, remove]
  rcases hold : t.get name with e | old
  · exact .error e
  change Agree _
    (t.ensureRenamable name newName? >>= fun _ ↦ make >>= fun row ↦
      .ok (row, t.adjust name fun _ ↦ row))
    ((t.without name).ensureVacant (newName?.getD name) >>= fun _ ↦ make >>= fun row ↦
      (t.without name).insert row >>= fun t' ↦ .ok (row, t'))
  -- from here on both ask for the same name and make the same row
  rw [← ensureVacant_without ht]
  rcases hvacant : (t.without name).ensureVacant (newName?.getD name) with e | _
  · exact .error e
  rcases hrow : make with e | row
  · exact .error e
  rw [← hmake row hrow, ensureVacant_eq_ok_iff] at hvacant
  have hinsert : (t.without name).insert row = .ok ((t.without name).push row) :=
    insert_eq_ok_iff.mpr ⟨hvacant, rfl⟩
  change Agree _ (.ok (row, t.adjust name fun _ ↦ row))
    ((t.without name).insert row >>= fun t' ↦ .ok (row, t'))
  rw [hinsert]
  exact .ok (inPlace_of_vacant ht (get_eq_ok_iff.mp hold) hinsert)

end Table

/-! ## Operations -/

namespace RuleSet

section Written

variable {α : Type} [Named α] {w : RuleSet} {t : Table α} {write : Table α → RuleSet}
  {name : String} {newName? : Option String} {make : Except RuleError α}

/-- How a changed row compares with one that is removed and defined again. -/
inductive SameButPlace (w : RuleSet) (t : Table α) (write : Table α → RuleSet) (name : String) :
    Except RuleError α × RuleSet → Except RuleError α × RuleSet → Prop where
  /-- Both are refused for the same reason, and the change leaves everything as it was. -/
  | refused (e : RuleError) (w' : RuleSet) :
    SameButPlace w t write name (.error e, w) (.error e, w')
  /-- Both make the same row, and nothing is different but its place. -/
  | made {p q : α × Table α} (h : t.InPlace name p q) :
    SameButPlace w t write name (.ok p.1, write p.2) (.ok q.1, write q.2)

theorem sameButPlace_of_perform (ht : t.names.Nodup)
    (hmake : ∀ row, make = .ok row → Named.name row = newName?.getD name)
    {modify remove define : Edit α}
    (hmodify : w.perform modify = w.written write (t.redefine name newName? make))
    (hremove : w.perform remove = w.written write (t.remove name))
    (hdefine : ∀ t', (write t').perform define =
      (write t').written write (t'.define (newName?.getD name) make)) :
    w.SameButPlace t write name (w.perform modify)
      (w.perform (discard remove >>= fun _ ↦ define)) := by
  have hagree := Table.agree_redefine ht hmake
  rw [Table.replaceLast] at hagree
  rw [hmodify, perform_bind, perform_discard, hremove]
  rcases hold : t.remove name with e | ⟨old, t'⟩
  · rw [hold] at hagree
    generalize t.redefine name newName? make = x at hagree ⊢
    cases hagree
    exact .refused e _
  · rw [hold] at hagree
    change Agree _ _ (t'.define (newName?.getD name) make) at hagree
    change SameButPlace _ _ _ _ _ ((write t').perform define)
    rw [hdefine]
    generalize t.redefine name newName? make = x, t'.define (newName?.getD name) make = y
      at hagree ⊢
    cases hagree with
    | error e => exact .refused e _
    | ok h => exact .made h

end Written

variable {w : RuleSet}

/-! ### Actions -/

theorem perform_removeAction (w : RuleSet) (name : String) :
    w.perform (removeAction name) =
      w.written (fun actions ↦ { w with actions }) (w.actions.remove name) := by
  rw [← perform_written, removeAction, perform_get_bind]

theorem perform_modifyAction (w : RuleSet) (name : String) (newName? : Option String)
    (effects : List Effect) :
    w.perform (modifyAction name newName? (some effects)) =
      w.written (fun actions ↦ { w with actions })
        (w.actions.redefine name newName? (w.makeAction (newName?.getD name) effects)) := by
  rw [← perform_written, modifyAction, perform_get_bind, Table.redefine, makeAction]
  cases hget : w.actions.get name with
  | error e => rfl
  | ok old =>
    have hname : old.name = name := (Table.get?_eq_some (Table.get_eq_ok_iff.mp hget)).2
    rw [perform_bind_of_ok (perform_lift _ _), hname]
    simp only [← lift_bind_lift]
    rfl

/-! ### Entities -/

theorem perform_removeEntity (w : RuleSet) (name : String) :
    w.perform (removeEntity name) =
      w.written (fun entities ↦ { w with entities }) (w.entities.remove name) := by
  rw [← perform_written, removeEntity, perform_get_bind]

theorem perform_modifyEntity (w : RuleSet) (name : String) (newName? : Option String)
    (slots : List Slot) (actions : List String) :
    w.perform (modifyEntity name newName? (some slots) (some actions)) =
      w.written (fun entities ↦ { w with entities })
        (w.entities.redefine name newName? (w.makeEntity (newName?.getD name) slots actions)) := by
  rw [← perform_written, modifyEntity, perform_get_bind, Table.redefine, makeEntity]
  cases hget : w.entities.get name with
  | error e => rfl
  | ok old =>
    have hname : old.name = name := (Table.get?_eq_some (Table.get_eq_ok_iff.mp hget)).2
    rw [perform_bind_of_ok (perform_lift _ _), hname]
    simp only [forM_lift, option_forM_lift, Option.mapM_some, ← lift_bind_lift]
    -- slots that may be missing are checked like those that are there
    cases w.checkSlots slots <;> rfl

/-! ### Both ways -/

/-- **Changing a row is defining it anew, in its place.** In whatever rule set operations have led
to, an action that is given new effects, under its name or another one, is what it would be if it
were removed and defined with them; and so is an entity that is given new slots and actions. Both
ways are refused for the same reason, or they differ in the place of the row and in nothing else. -/
theorem modify_eq_redefine (h : w.Reachable) (name : String) (newName? : Option String) :
    (∀ effects, w.SameButPlace w.actions (fun actions ↦ { w with actions }) name
        (w.perform (modifyAction name newName? (some effects)))
        (w.perform (do
          discard (removeAction name)
          defineAction (newName?.getD name) effects))) ∧
      ∀ slots actions, w.SameButPlace w.entities (fun entities ↦ { w with entities }) name
        (w.perform (modifyEntity name newName? (some slots) (some actions)))
        (w.perform (do
          discard (removeEntity name)
          defineEntity (newName?.getD name) slots actions)) := by
  constructor
  · intro effects
    exact sameButPlace_of_perform (h.distinct .action) (fun _ hrow ↦ name_of_makeAction hrow)
      (perform_modifyAction w name newName? effects) (perform_removeAction w name)
      fun t' ↦ perform_defineAction _ _ _
  · intro slots actions
    exact sameButPlace_of_perform (h.distinct .entity) (fun _ hrow ↦ name_of_makeEntity hrow)
      (perform_modifyEntity w name newName? slots actions) (perform_removeEntity w name)
      fun t' ↦ perform_defineEntity _ _ _ _

/-- A guild of three, of whom the second can paint. -/
def guild : RuleSet :=
  [.defineAttribute "skill" .number,
    .defineAction "paint" [⟨"skill", .user, .add, .literal (.number (.ofInt 1)), none⟩],
    .defineAction "carve" [⟨"skill", .user, .add, .literal (.number (.ofInt 2)), none⟩],
    .defineEntity "Ann" [] ["carve"],
    .defineEntity "Bob" [⟨"skill", .number, .number (.ofInt 7)⟩] ["paint"],
    .defineEntity "Cid" [] []].foldl after (.empty "guild")

/-- Bob learns to carve, which he is told twice, and keeps his name. -/
def relearn : Edit Entity :=
  modifyEntity "Bob" (some "Bob") (some [⟨"skill", .number, .number (.ofInt 8)⟩])
    (some ["carve", "paint", "carve"])

/-- Bob leaves and comes back with what he has learned. -/
def rejoin : Edit Entity := do
  discard (removeEntity "Bob")
  defineEntity "Bob" [⟨"skill", .number, .number (.ofInt 8)⟩] ["carve", "paint", "carve"]

theorem modify_eq_redefine_guild :
    guild.Reachable ∧
    guild.SameButPlace guild.entities (fun entities ↦ { guild with entities }) "Bob"
      (guild.perform relearn) (guild.perform rejoin) ∧
    (guild.perform relearn).1 = .ok
      ⟨"Bob", [⟨"skill", .number, .number (.ofInt 8)⟩], ["carve", "paint"]⟩ ∧
    (guild.perform relearn).2.entities.names = ["Ann", "Bob", "Cid"] ∧
    (guild.perform rejoin).2.entities.names = ["Ann", "Cid", "Bob"] := by
  have hreachable : guild.Reachable := .foldl_after (.empty "guild") _
  obtain ⟨-, hentity⟩ := modify_eq_redefine hreachable "Bob" (some "Bob")
  exact ⟨hreachable, hentity _ _, by decide +kernel, by decide +kernel, by decide +kernel⟩

end RuleSet

end Tabletop
