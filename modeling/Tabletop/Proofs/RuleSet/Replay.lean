import Tabletop.Proofs.Action.Sequence
import Tabletop.Proofs.RuleSet.Direct
import Tabletop.Proofs.RuleSet.Operation

/-!
# Reported changes

What a use of an action reports is all that it did. The changes, made again one after the other,
lead from the entities before the use to those after it, and each of them finds the value that it
says was there (`replay_of_useAction`). Every entity that an effect comes to is accounted for, once
for each mention: it was changed or it was skipped.

Both are read off the direct run. Each of its touches either counts one skipped effect, or writes
one value and reports just that (`DirectRun.touch_cases`), so both are kept by one touch and hence
by the two loops over effects and names.
-/

namespace Tabletop

/-! ## Making changes again -/

/-- A change made again: one value of one entity is overwritten, and nothing else. -/
def Change.redo (t : Table Entity) (c : Change) : Table Entity :=
  t.adjust c.entity (·.put c.attr c.after)

namespace Table

/-- Changes made again, one after the other. -/
def replay (t : Table Entity) (changes : List Change) : Table Entity := changes.foldl Change.redo t

variable {t : Table Entity} {changes : List Change} {c : Change}

theorem replay_concat : t.replay (changes ++ [c]) = c.redo (t.replay changes) :=
  List.foldl_concat _ _ _ _

/-- What an entity holds under an attribute. -/
def held? (t : Table Entity) (name attr : String) : Option Value :=
  (t.get? name).bind (·.value? attr)

/-- Whether each change finds the value it says was there, when all are made again in order. -/
def Finds (t : Table Entity) (changes : List Change) : Prop :=
  ∀ earlier c later, changes = earlier ++ c :: later →
    (t.replay earlier).held? c.entity c.attr = some c.before

theorem finds_nil : t.Finds [] := fun earlier _ _ h ↦ absurd h.symm (by simp)

theorem Finds.concat (h : t.Finds changes)
    (hc : (t.replay changes).held? c.entity c.attr = some c.before) :
    t.Finds (changes ++ [c]) := by
  intro earlier c' later hsplit
  -- the change in the middle is the last one, or one of those before it
  cases later using List.reverseRecOn with
  | nil =>
    obtain ⟨rfl, hlast⟩ := List.append_inj' hsplit rfl
    obtain rfl := List.singleton_inj.mp hlast
    exact hc
  | append_singleton later last _ =>
    rw [← List.cons_append, ← List.append_assoc] at hsplit
    exact h earlier c' later (List.append_inj' hsplit rfl).1

end Table

/-! ## Counting what an effect comes to -/

/-- How many entities an effect comes to, one for each mention. -/
def Effect.mentions (f : Effect) (targets : List String) : Nat :=
  match f.scope with
  | .user | .single => 1
  | .every => targets.length

/-- What every step adds to, a run of steps adds up. -/
theorem foldlM_add {α β ε : Type} {f : β → α → Except ε β} (count : β → Nat) (amount : α → Nat)
    {as : List α} {b b' : β}
    (hstep : ∀ a b b', f b a = .ok b' → count b' = count b + amount a)
    (h : as.foldlM f b = .ok b') : count b' = count b + (as.map amount).sum := by
  induction as generalizing b with
  | nil =>
    obtain rfl := pure_eq_ok_iff.mp h
    rfl
  | cons a as ih =>
    rw [List.foldlM_cons, bind_eq_ok_iff] at h
    obtain ⟨b₁, hb₁, h⟩ := h
    rw [ih h, hstep a b b₁ hb₁, List.map_cons, List.sum_cons, Nat.add_assoc]

namespace DirectRun

variable {a : Action} {f : Effect} {user name : String} {targets names : List String}
  {r r' : DirectRun} {t : Table Entity}

/-- How many entities were changed or skipped so far. -/
def count (r : DirectRun) : Nat := r.changes.length + r.skipped

theorem count_touch (h : touch a user targets f r name = .ok r') : r'.count = r.count + 1 := by
  obtain rfl | ⟨e, s, after, -, -, rfl⟩ := touch_cases h
  · rfl
  · rw [count, count, List.length_append, List.length_singleton, Nat.add_right_comm]

theorem length_touched (h : touched a user targets f.scope = .ok names) :
    names.length = f.mentions targets := by
  rw [Effect.mentions]
  cases hscope : f.scope with
  | user =>
    rw [hscope] at h
    obtain rfl := Except.ok.inj h
    rfl
  | single =>
    rw [hscope] at h
    obtain ⟨first, -, h⟩ := bind_eq_ok_iff.mp h
    obtain rfl := pure_eq_ok_iff.mp h
    rfl
  | every =>
    rw [hscope, touched] at h
    split at h
    · exact absurd h (by simp)
    · exact congrArg List.length (Except.ok.inj h).symm

theorem count_step (h : step a user targets r f = .ok r') :
    r'.count = r.count + f.mentions targets := by
  obtain ⟨names, hnames, h⟩ := bind_eq_ok_iff.mp h
  obtain ⟨-, h⟩ := check_bind_eq_ok_iff.mp h
  have hadd := foldlM_add count (fun _ ↦ 1) (fun _ _ _ ↦ count_touch) h
  rw [hadd, ← length_touched hnames, List.map_const', List.sum_replicate, smul_eq_mul, mul_one]

/-- **Every entity that an effect comes to is changed or skipped.** -/
theorem count_run (h : run a user targets t = .ok r) :
    r.count = (a.effects.map (·.mentions targets)).sum :=
  (foldlM_add count (·.mentions targets) (fun _ _ _ ↦ count_step) h).trans (Nat.zero_add _)

/-! ## The changes of a run -/

/-- Whether the changes reported so far lead from a table to the entities as they are. -/
def Replays (t : Table Entity) (r : DirectRun) : Prop :=
  r.entities = t.replay r.changes ∧ t.Finds r.changes

theorem Replays.touch (hr : Replays t r) (h : touch a user targets f r name = .ok r') :
    Replays t r' := by
  obtain ⟨hentities, hfinds⟩ := hr
  obtain rfl | ⟨e, s, after, he, hs, rfl⟩ := touch_cases h
  · exact ⟨hentities, hfinds⟩
  · refine ⟨?_, hfinds.concat ?_⟩
    · rw [Table.replay_concat, ← hentities]
      rfl
    · rw [← hentities, Table.held?, he, Option.bind_some, Entity.value?, hs, Option.map_some]

theorem Replays.step (hr : Replays t r) (h : step a user targets r f = .ok r') :
    Replays t r' := by
  obtain ⟨names, -, h⟩ := bind_eq_ok_iff.mp h
  obtain ⟨-, h⟩ := check_bind_eq_ok_iff.mp h
  exact foldlM_induct hr (fun _ _ _ _ hr ht ↦ hr.touch ht) h

/-- **The changes of a run lead to where it ends.** -/
theorem replays_run (h : run a user targets t = .ok r) : Replays t r :=
  foldlM_induct ⟨rfl, Table.finds_nil⟩ (fun _ _ _ _ hr hs ↦ hr.step hs) h

end DirectRun

/-! ## Uses -/

namespace RuleSet

variable {w w' : RuleSet} {user action : String} {targets : List String} {o : Outcome}

/-- A use that succeeds is a direct run that succeeds, with the copies put in their places. -/
theorem exists_run_of_useAction (h : w.perform (useAction user action targets) = (.ok o, w')) :
    w.rehearse user action targets = .ok o ∧
      w' = { w with entities := w.entities.putAll o.cast.members } ∧
      ∃ a, w.actions.get? action = some a ∧
        DirectRun.run a user targets w.entities =
          .ok ⟨w.entities.putAll o.cast.members, o.changes, o.skipped⟩ := by
  rw [perform_useAction] at h
  cases hrehearse : w.rehearse user action targets with
  | error e => exact absurd (Prod.mk.inj (hrehearse ▸ h)).1 (by simp)
  | ok o' =>
    rw [hrehearse] at h
    obtain ⟨ho, rfl⟩ := Prod.mk.inj h
    obtain rfl := Except.ok.inj ho
    refine ⟨rfl, rfl, ?_⟩
    have hagree := w.agree_rehearse user action targets
    rw [hrehearse] at hagree
    generalize hdirect : w.useDirectly user action targets = y at hagree
    obtain _ | rfl := hagree
    obtain ⟨u, -, hdirect⟩ := bind_eq_ok_iff.mp hdirect
    obtain ⟨a, ha, hdirect⟩ := bind_eq_ok_iff.mp hdirect
    obtain ⟨-, hdirect⟩ := check_bind_eq_ok_iff.mp hdirect
    obtain ⟨-, hdirect⟩ := check_bind_eq_ok_iff.mp hdirect
    exact ⟨a, knownAction_eq_ok_iff.mp ha, hdirect⟩

/-- The copies that a use answers seat the user and the targets, in the order in which they are
mentioned first. -/
theorem seats_of_rehearse (h : w.rehearse user action targets = .ok o) :
    o.cast.Seats user targets ∧ o.cast.names = (user :: targets).eraseDups := by
  obtain ⟨u, a, ts, hu, -, -, hts, happly⟩ := rehearse_eq_ok_iff.mp h
  obtain rfl : u.name = user := (Table.get?_eq_some hu).2
  have hnames : targets = ts.map Entity.name := by
    rw [← List.forall₂_eq_eq_eq, List.forall₂_map_right_iff]
    exact hts.imp fun _ _ ht ↦ (Table.get?_eq_some ht).2.symm
  obtain ⟨hcast, htargets⟩ := Action.cast_of_apply happly
  rw [hnames]
  exact ⟨(Cast.seats_ofTargets u ts).congr hcast htargets, hcast.trans (Cast.names_ofTargets u ts)⟩

/-- The copies that a use answers are the rows that it leaves, the user's first and then those of
the other targets, in the order in which they are mentioned first. -/
theorem members_of_rehearse (h : w.rehearse user action targets = .ok o) :
    o.cast.members.map some = (user :: (targets.filter (· != user)).eraseDups).map
      (w.entities.putAll o.cast.members).get? := by
  obtain ⟨hseats, hnames⟩ := seats_of_rehearse h
  have hrow : ∀ m ∈ o.cast.members,
      (w.entities.putAll o.cast.members).get? m.name = some m := fun m hm ↦
    Table.get?_putAll_of_mem hseats.nodup hm (name_mem_names_of_rehearse h m hm)
  rw [List.eraseDups_cons] at hnames
  rw [show (targets.filter (· != user)) = targets.filter fun b ↦ !b == user from rfl, ← hnames,
    Cast.names, List.map_map]
  exact List.map_congr_left fun m hm ↦ (hrow m hm).symm

/-- **The reported changes are what happened.** A use that succeeds replaces the table of entities
by the one that the reported changes lead to, each of which finds the value it says was there, and
touches nothing else. The copies answered are the rows of the user and of the other targets after
the use. Changes and skipped effects together are as many as the mentions that the effects come
to. -/
theorem replay_of_useAction (h : w.perform (useAction user action targets) = (.ok o, w')) :
    w' = { w with entities := w.entities.replay o.changes } ∧
      w.entities.Finds o.changes ∧
      o.cast.members.map some =
        (user :: (targets.filter (· != user)).eraseDups).map w'.entities.get? ∧
      ∃ a, w.actions.get? action = some a ∧
        o.changes.length + o.skipped = (a.effects.map (·.mentions targets)).sum := by
  obtain ⟨hrehearse, rfl, a, ha, hrun⟩ := exists_run_of_useAction h
  obtain ⟨hentities, hfinds⟩ := DirectRun.replays_run hrun
  refine ⟨?_, hfinds, members_of_rehearse hrehearse, a, ha, DirectRun.count_run hrun⟩
  rw [← hentities]

/-- A salon. Whoever soothes others takes them out of a bad mood, and is proud of it. -/
def salon : RuleSet :=
  [.defineAttribute "mood" .text,
    .defineAction "soothe"
      [⟨"mood", .every, .assign, .literal (.text "calm"),
          some ⟨"mood", .target, .eq, .text "cross"⟩⟩,
        ⟨"mood", .user, .assign, .literal (.text "proud"), none⟩],
    .defineEntity "Ann" [⟨"mood", .text, .text "cross"⟩] ["soothe"],
    .defineEntity "Bob" [⟨"mood", .text, .text "cross"⟩] []].foldl after (.empty "salon")

/-- Ann soothes Bob, herself and Bob again, who is not cross any more then. -/
def soothing : List Change :=
  [⟨"Bob", "mood", .text "cross", .text "calm"⟩, ⟨"Ann", "mood", .text "cross", .text "calm"⟩,
    ⟨"Ann", "mood", .text "calm", .text "proud"⟩]

theorem replay_of_useAction_salon :
    ∃ o w', salon.perform (useAction "Ann" "soothe" ["Bob", "Ann", "Bob"]) = (.ok o, w') ∧
      o.changes = soothing ∧
      w' = { salon with entities := salon.entities.replay soothing } ∧
      salon.entities.Finds soothing ∧
      o.cast.members.map some = ["Ann", "Bob"].map w'.entities.get? ∧
      soothing.length + o.skipped = 4 := by
  have hchanges : (salon.rehearse "Ann" "soothe" ["Bob", "Ann", "Bob"]).map Outcome.changes =
      .ok soothing := by
    decide +kernel
  obtain ⟨o, ho, hsoothing⟩ := map_eq_ok_iff.mp hchanges
  have huse : salon.perform (useAction "Ann" "soothe" ["Bob", "Ann", "Bob"]) =
      (.ok o, { salon with entities := salon.entities.putAll o.cast.members }) := by
    rw [perform_useAction, ho]
  obtain ⟨hw', hfinds, hmembers, a, ha, hcount⟩ := replay_of_useAction huse
  obtain rfl := Option.some.inj ha
  rw [hsoothing] at hw' hfinds hcount
  exact ⟨o, _, huse, hsoothing, hw', hfinds, hmembers, hcount⟩

end RuleSet

end Tabletop
