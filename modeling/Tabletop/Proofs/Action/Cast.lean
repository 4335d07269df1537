import Tabletop.Action.Cast
import Tabletop.Proofs.Table
import Tabletop.RuleSet.Basic

/-!
# Casts as indices of names

A cast addresses its members by place, the rules address entities by name. `Cast.Seats` says that
the two fit: no name has two members, the user stands at its place, and each mention of a target
stands where the member of its name does. A cast that is put together from a user and targets seats
them, and it goes on doing so as long as members keep their names.

Putting the members of a cast in their places in a table of entities writes each of them once, in
any order.
-/

namespace Tabletop

/-! ## Putting several rows in their places -/

namespace Table

variable {α : Type} [Named α] {t : Table α} {rows : List α} {row : α} {name : String}

/-- Rows take the places of those of their names, one after the other. -/
def putAll (t : Table α) (rows : List α) : Table α := rows.foldl put t

@[simp] theorem putAll_cons : t.putAll (row :: rows) = (t.put row).putAll rows := rfl

theorem putAll_append {rows' : List α} :
    t.putAll (rows ++ rows') = (t.putAll rows).putAll rows' := List.foldl_append

@[simp] theorem kind_putAll : (t.putAll rows).kind = t.kind := by
  induction rows generalizing t with
  | nil => rfl
  | cons row rows ih => rw [putAll_cons, ih, kind_put]

@[simp] theorem names_putAll : (t.putAll rows).names = t.names := by
  induction rows generalizing t with
  | nil => rfl
  | cons row rows ih => rw [putAll_cons, ih, names_put]

theorem forall_mem_putAll {P : α → Prop} (ht : ∀ a ∈ t.rows, P a) (hrows : ∀ a ∈ rows, P a) :
    ∀ a ∈ (t.putAll rows).rows, P a := by
  induction rows generalizing t with
  | nil => exact ht
  | cons row rows ih =>
    obtain ⟨hrow, hrows⟩ := List.forall_mem_cons.mp hrows
    exact ih (forall_mem_put ht hrow) hrows

theorem get?_putAll_of_not_mem (h : name ∉ rows.map Named.name) :
    (t.putAll rows).get? name = t.get? name := by
  induction rows generalizing t with
  | nil => rfl
  | cons row rows ih =>
    rw [List.map_cons, List.mem_cons, not_or] at h
    rw [putAll_cons, ih h.2, get?_put_of_ne h.1]

theorem get?_putAll_of_mem (hnodup : (rows.map Named.name).Nodup) (h : row ∈ rows)
    (hrow : Named.name row ∈ t.names) : (t.putAll rows).get? (Named.name row) = some row := by
  induction rows generalizing t with
  | nil => exact absurd h List.not_mem_nil
  | cons a rows ih =>
    obtain ⟨ha, hrows⟩ := List.nodup_cons.mp hnodup
    rw [putAll_cons]
    rcases List.mem_cons.mp h with rfl | h
    · rw [get?_putAll_of_not_mem ha, get?_put_self hrow]
    · exact ih hrows h (by rwa [names_put])

/-- A row whose name is not among those that follow may as well be put after them. -/
theorem put_putAll (h : Named.name row ∉ rows.map Named.name) :
    (t.put row).putAll rows = (t.putAll rows).put row := by
  induction rows generalizing t with
  | nil => rfl
  | cons a rows ih =>
    rw [List.map_cons, List.mem_cons, not_or] at h
    rw [putAll_cons, putAll_cons, put_comm (Ne.symm h.1), ih h.2]

/-- Rows of other names may be put before or after. -/
theorem putAll_comm {rows' : List α}
    (h : (rows.map Named.name).Disjoint (rows'.map Named.name)) :
    (t.putAll rows).putAll rows' = (t.putAll rows').putAll rows := by
  induction rows' generalizing t with
  | nil => rfl
  | cons row rows' ih =>
    rw [List.map_cons, List.disjoint_cons_right] at h
    rw [putAll_cons, putAll_cons, ← put_putAll h.1, ih h.2]

/-- Changing one of the rows before they are put changes one place of the table. -/
theorem putAll_set {i : Nat} {old : α} (hnodup : (rows.map Named.name).Nodup)
    (hold : rows[i]? = some old) (hname : Named.name row = Named.name old) :
    t.putAll (rows.set i row) = (t.putAll rows).put row := by
  induction rows generalizing t i with
  | nil => simp at hold
  | cons a rows ih =>
    obtain ⟨ha, hrows⟩ := List.nodup_cons.mp hnodup
    cases i with
    | zero =>
      obtain rfl : a = old := by simpa using hold
      rw [List.set_cons_zero, putAll_cons, putAll_cons, ← put_putAll (hname ▸ ha),
        put_put_self hname]
    | succ i =>
      rw [List.set_cons_succ, putAll_cons, putAll_cons]
      exact ih hrows (by simpa using hold)

theorem put_of_get? (h : t.get? (Named.name row) = some row) : t.put row = t := adjust_of_get? h

/-- Rows that stand in the table already change nothing. -/
theorem putAll_of_get? (h : ∀ row ∈ rows, t.get? (Named.name row) = some row) :
    t.putAll rows = t := by
  induction rows with
  | nil => rfl
  | cons row rows ih =>
    obtain ⟨hrow, hrows⟩ := List.forall_mem_cons.mp h
    rw [putAll_cons, put_of_get? hrow, ih hrows]

end Table

/-! ## Seats -/

namespace Cast

variable {c : Cast} {user : String} {targets : List String} {place : Nat}

/-- The names of the members. -/
def names (c : Cast) : List String := c.members.map Entity.name

/-- A cast that has a member for the user and for every target, each at its place. -/
structure Seats (c : Cast) (user : String) (targets : List String) : Prop where
  /-- No name has two members. -/
  nodup : c.names.Nodup
  /-- The user is there. -/
  user : c.names[userPlace]? = some user
  /-- Each mention of a target is the place of its member. -/
  targets : List.Forall₂ (fun place name ↦ c.names[place]? = some name) c.targets targets

theorem names_set (c : Cast) (place : Nat) (e : Entity) :
    (c.set place e).names = c.names.set place e.name :=
  List.map_set

theorem names_set_of_name_eq {m e : Entity} (hm : c.members[place]? = some m)
    (h : e.name = m.name) : (c.set place e).names = c.names := by
  obtain ⟨hlt, rfl⟩ := List.getElem?_eq_some_iff.mp hm
  have hplace : place < c.names.length := by rwa [names, List.length_map]
  have hname : e.name = c.names[place] := by
    rw [h]
    exact List.getElem_map _ |>.symm
  rw [names_set, hname, List.set_getElem_self]

/-- Seats depend on names only. -/
theorem Seats.congr {c' : Cast} (hc : c.Seats user targets) (hnames : c'.names = c.names)
    (htargets : c'.targets = c.targets) : c'.Seats user targets := by
  obtain ⟨hnodup, huser, hts⟩ := hc
  exact ⟨hnames ▸ hnodup, hnames ▸ huser, by rw [hnames, htargets]; exact hts⟩

/-- Mentioning a target takes down the seat it has, or gives it one behind all others. -/
theorem cases_of_mention (c : Cast) (target : Entity) :
    (∃ place, c.names[place]? = some target.name ∧
      c.mention target = ⟨c.members, c.targets ++ [place]⟩) ∨
    target.name ∉ c.names ∧
      c.mention target = ⟨c.members ++ [target], c.targets ++ [c.members.length]⟩ := by
  unfold Cast.mention
  split
  · rename_i place hplace
    obtain ⟨hlt, hname, -⟩ := List.findIdx?_eq_some_iff_getElem.mp hplace
    refine .inl ⟨place, ?_, rfl⟩
    rw [names, List.getElem?_map, List.getElem?_eq_getElem hlt, Option.map_some, eq_of_beq hname]
  · rename_i hnone
    refine .inr ⟨fun hmem ↦ ?_, rfl⟩
    obtain ⟨m, hm, hname⟩ := List.mem_map.mp hmem
    simpa [hname] using List.findIdx?_eq_none_iff.mp hnone m hm

theorem Seats.mention {target : Entity} (hc : c.Seats user targets) :
    (c.mention target).Seats user (targets ++ [target.name]) := by
  obtain ⟨hnodup, huser, hts⟩ := hc
  obtain ⟨place, hplace, hmention⟩ | ⟨hnew, hmention⟩ := c.cases_of_mention target
  · rw [hmention]
    exact ⟨hnodup, huser, List.rel_append hts (.cons hplace .nil)⟩
  · -- all others stay where they are
    have hnames : (c.mention target).names = c.names ++ [target.name] := by
      rw [hmention]
      exact List.map_append
    have hlen : c.names.length = c.members.length := List.length_map _
    have hold : ∀ {i : Nat} {name : String}, c.names[i]? = some name →
        (c.mention target).names[i]? = some name := fun h ↦ by
      rw [hnames, List.getElem?_append_left (List.getElem?_eq_some_iff.mp h).1, h]
    refine ⟨?_, hold huser, ?_⟩
    · rw [hnames]
      exact List.nodup_append.mpr ⟨hnodup, List.nodup_singleton _, fun a ha b hb ↦ by
        rw [List.mem_singleton.mp hb]
        rintro rfl
        exact hnew ha⟩
    · rw [show (c.mention target).targets = c.targets ++ [c.members.length] by rw [hmention]]
      refine List.rel_append (hts.imp fun _ _ ↦ hold) (.cons ?_ .nil)
      rw [hnames, ← hlen, List.getElem?_concat_length]

theorem seats_ofTargets (user : Entity) (targets : List Entity) :
    (ofTargets user targets).Seats user.name (targets.map Entity.name) := by
  -- the induction is over the targets to come, with those who are seated
  have key : ∀ (ts : List Entity) (c : Cast) (before : List String), c.Seats user.name before →
      (ts.foldl Cast.mention c).Seats user.name (before ++ ts.map Entity.name) := by
    intro ts
    induction ts with
    | nil =>
      intro c before hc
      rwa [List.map_nil, List.append_nil]
    | cons t ts ih =>
      intro c before hc
      have h := ih (c.mention t) (before ++ [t.name]) hc.mention
      rwa [List.append_assoc, List.singleton_append] at h
  exact key targets ⟨[user], []⟩ [] ⟨List.nodup_singleton _, rfl, .nil⟩

/-- Who has a seat has a member. -/
theorem exists_member {name : String} (h : c.names[place]? = some name) :
    ∃ m, c.members[place]? = some m ∧ m.name = name := by
  rw [names, List.getElem?_map, Option.map_eq_some_iff] at h
  exact h

/-! ## Who sits where -/

theorem names_mention (c : Cast) (target : Entity) :
    (c.mention target).names =
      if target.name ∈ c.names then c.names else c.names ++ [target.name] := by
  obtain ⟨place, hplace, hmention⟩ | ⟨hnew, hmention⟩ := c.cases_of_mention target
  · rw [if_pos (List.mem_of_getElem? hplace), hmention]
    rfl
  · rw [if_neg hnew, hmention]
    exact List.map_append

theorem eraseDups_concat (names : List String) (name : String) :
    (names ++ [name]).eraseDups =
      if name ∈ names.eraseDups then names.eraseDups else names.eraseDups ++ [name] := by
  simp only [List.eraseDups_append, List.removeAll, List.mem_eraseDups]
  split
  · simp [*]
  · simp [*, List.eraseDups_cons]

theorem ofTargets_concat (user : Entity) (targets : List Entity) (target : Entity) :
    ofTargets user (targets ++ [target]) = (ofTargets user targets).mention target :=
  List.foldl_concat _ _ _ _

/-- **The order of the members.** The user comes first, and then each other target at its first
mention. -/
theorem names_ofTargets (user : Entity) (targets : List Entity) :
    (ofTargets user targets).names = (user.name :: targets.map Entity.name).eraseDups := by
  -- the induction is from the back, where the next target is mentioned
  induction targets using List.reverseRecOn with
  | nil => rfl
  | append_singleton targets target ih =>
    rw [ofTargets_concat, names_mention, ih, List.map_append, List.map_singleton, ← List.cons_append,
      eraseDups_concat]

/-- Members that bear the names of other ones, and are all among those, are the same members. -/
theorem members_eq_of_names_eq {c' : Cast} (hnodup : c.names.Nodup) (hnames : c'.names = c.names)
    (hmem : ∀ m ∈ c'.members, m ∈ c.members) : c'.members = c.members := by
  have hlength : c'.members.length = c.members.length := by
    simpa [names] using congrArg List.length hnames
  refine List.ext_getElem hlength fun i hi hi' ↦ ?_
  refine List.inj_on_of_nodup_map hnodup (hmem _ (List.getElem_mem hi)) (List.getElem_mem hi') ?_
  have hname : c'.names[i]? = c.names[i]? := by rw [hnames]
  simpa [names, hi, hi'] using hname

/-- A cast whose members are those of another one, and that seats the same user and targets, is the
same cast. -/
theorem Seats.eq {c' : Cast} (hc : c.Seats user targets) (hc' : c'.Seats user targets)
    (hnames : c'.names = c.names) (hmem : ∀ m ∈ c'.members, m ∈ c.members) : c' = c := by
  have hmembers := members_eq_of_names_eq hc.nodup hnames hmem
  -- no two places have one name, so a name is mentioned by the place where it stands
  have hunique : Relator.LeftUnique fun (place : Nat) name ↦ c.names[place]? = some name :=
    fun i _ j hi hj ↦
      (List.getElem?_inj (List.getElem?_eq_some_iff.mp hi).1 hc.nodup).mp (hi.trans hj.symm)
  have htargets : c'.targets = c.targets :=
    List.left_unique_forall₂' hunique (hnames ▸ hc'.targets) hc.targets
  cases c
  cases c'
  rw [mk.injEq]
  exact ⟨hmembers, htargets⟩

end Cast

end Tabletop
