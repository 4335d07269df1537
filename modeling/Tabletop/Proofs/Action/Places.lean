import Tabletop.Proofs.Action.Apply
import Tabletop.Proofs.Action.Cast
import Tabletop.Proofs.RuleSet.Sound

/-!
# Places that are there

Whoever takes part in an action is addressed by place, and an action looks up places and slots as if
they might be missing. They never are. A cast that is put together from a user and targets has one
member for each name and knows the place of every mention (`Cast.indexes_ofTargets`), and no effect
changes who the members are, in which order they stand, or which attributes they have: the outline
of the cast stays (`Action.outline_step`).

So at every moment of an action each place that is looked up has a member. And an effect that has
found the attribute on everyone it touches finds it again when it comes to change it, although it
has changed others by then, or the same member at an earlier mention
(`Action.exists_slot_of_touches`).
-/

namespace Tabletop

namespace Cast

variable {c c' : Cast} {place : Nat} {m user : Entity} {targets : List Entity}

/-! ## Who is where -/

/-- A cast of a user and targets, as an index of them. -/
structure Indexes (c : Cast) (user : Entity) (targets : List Entity) : Prop where
  /-- No name has two members. -/
  nodup : c.names.Nodup
  /-- The user comes first, and then each other target at its first mention. -/
  names : c.names = (user.name :: targets.map Entity.name).eraseDups
  /-- A member is what was first mentioned under its name. -/
  first : ∀ m ∈ c.members, (user :: targets).find? (·.name == m.name) = some m
  /-- The user is at its place. -/
  user : c.members[userPlace]? = some user
  /-- Each mention of a target is a place, and the member of its name is there. -/
  targets : List.Forall₂
    (fun place target ↦ ∃ h : place < c.members.length, c.members[place].name = target.name)
    c.targets targets

theorem find?_of_mem_ofTargets (h : m ∈ (ofTargets user targets).members) :
    (user :: targets).find? (·.name == m.name) = some m := by
  -- the induction is from the back, where the next target is mentioned
  induction targets using List.reverseRecOn with
  | nil =>
    rw [List.mem_singleton.mp h]
    exact List.find?_cons_of_pos (beq_self_eq_true _)
  | append_singleton targets target ih =>
    rw [ofTargets_concat] at h
    rw [← List.cons_append, List.find?_append]
    obtain ⟨place, -, hold⟩ | ⟨hnew, hnext⟩ := (ofTargets user targets).cases_of_mention target
    · rw [hold] at h
      rw [ih h, Option.some_or]
    · rw [hnext] at h
      rcases List.mem_append.mp h with h | h
      · rw [ih h, Option.some_or]
      · -- nobody of this name was mentioned before
        obtain rfl := List.mem_singleton.mp h
        have hnone : (user :: targets).find? (·.name == m.name) = none := by
          rw [names_ofTargets, List.mem_eraseDups, ← List.map_cons (f := Entity.name)] at hnew
          refine List.find?_eq_none.mpr fun e he hname ↦ hnew ?_
          exact eq_of_beq hname ▸ List.mem_map_of_mem he
        rw [hnone, Option.none_or]
        exact List.find?_cons_of_pos (beq_self_eq_true _)

/-- **A cast is an index of who takes part.** -/
theorem indexes_ofTargets (user : Entity) (targets : List Entity) :
    (ofTargets user targets).Indexes user targets := by
  have hseats := seats_ofTargets user targets
  refine ⟨hseats.nodup, names_ofTargets user targets, fun m ↦ find?_of_mem_ofTargets, ?_, ?_⟩
  · obtain ⟨m, hm, hname⟩ := exists_member hseats.user
    have hfirst := find?_of_mem_ofTargets (List.mem_of_getElem? hm)
    rw [List.find?_cons_of_pos (by simp [hname])] at hfirst
    rw [hm, hfirst]
  · refine (List.forall₂_map_right_iff.mp hseats.targets).imp fun place target hplace ↦ ?_
    obtain ⟨m, hm, hname⟩ := exists_member hplace
    obtain ⟨hlt, rfl⟩ := List.getElem?_eq_some_iff.mp hm
    exact ⟨hlt, hname⟩

/-- Whether the user and every mention of a target have a member at their place. -/
def InRange (c : Cast) : Prop := ∀ place ∈ userPlace :: c.targets, place < c.members.length

theorem Indexes.inRange (h : c.Indexes user targets) : c.InRange := by
  obtain ⟨-, -, -, huser, htargets⟩ := h
  refine List.forall_mem_cons.mpr ⟨(List.getElem?_eq_some_iff.mp huser).1, ?_⟩
  generalize c.targets = places at htargets
  induction htargets with
  | nil => exact List.forall_mem_nil _
  | cons hplace _ ih => exact List.forall_mem_cons.mpr ⟨hplace.1, ih⟩

/-! ## Outlines -/

/-- What a cast is apart from values: the names of the members with their attributes, in order, and
the places of the targets. -/
def outline (c : Cast) : List (String × List String) × List Nat :=
  (c.members.map fun m ↦ (m.name, m.attrs), c.targets)

theorem outline_set (hm : c.members[place]? = some m) (attr : String) (v : Value) :
    (c.set place (m.put attr v)).outline = c.outline := by
  obtain ⟨hlt, rfl⟩ := List.getElem?_eq_some_iff.mp hm
  have hplace : place < (c.members.map fun m ↦ (m.name, m.attrs)).length := by
    rwa [List.length_map]
  have hput : ((c.members[place].put attr v).name, (c.members[place].put attr v).attrs) =
      (c.members.map fun m ↦ (m.name, m.attrs))[place] := by
    rw [List.getElem_map, Entity.put_name, Entity.attrs_put]
  refine Prod.ext ?_ rfl
  change (c.members.set place (c.members[place].put attr v)).map _ = _
  rw [List.map_set, hput, List.set_getElem_self]
  rfl

theorem InRange.of_outline (hc : c.InRange) (h : c'.outline = c.outline) : c'.InRange := by
  have hlength : c'.members.length = c.members.length := by
    simpa [outline] using congrArg (List.length ∘ Prod.fst) h
  have htargets : c'.targets = c.targets := congrArg Prod.snd h
  rw [InRange, htargets, hlength]
  exact hc

/-- Members in the same place have the same attributes. -/
theorem attrs_of_outline (h : c'.outline = c.outline) (place : Nat) :
    c'.members[place]?.map Entity.attrs = c.members[place]?.map Entity.attrs := by
  have hplace := congrArg (fun o ↦ o.1[place]?.map Prod.snd) h
  simpa [outline, Function.comp_def] using hplace

end Cast

namespace Action

variable {a : Action} {f : Effect} {o o' : Outcome} {c : Cast} {places : List Nat} {place : Nat}
  {user : Entity} {targets : List Entity}

theorem outline_touch (h : a.touch f o place = .ok o') : o'.cast.outline = o.cast.outline := by
  obtain rfl | ⟨_, _, _, m, _, after, -, hm, -, -, rfl⟩ := touch_cases h
  · rfl
  · exact Cast.outline_set hm f.attr after

theorem outline_touches (h : places.foldlM (a.touch f) o = .ok o') :
    o'.cast.outline = o.cast.outline :=
  foldlM_induct (P := fun o' ↦ o'.cast.outline = o.cast.outline) rfl
    (fun _ _ _ _ ho ht ↦ (outline_touch ht).trans ho) h

/-- **An effect changes values only.** Who the members are, their order and the attributes of each
stay as they are. -/
theorem outline_step (h : a.step o f = .ok o') : o'.cast.outline = o.cast.outline := by
  obtain ⟨places, -, -, htouches⟩ := step_eq_ok_iff.mp h
  exact outline_touches htouches

/-! ## Moments of an action -/

/-- Whether an action comes to an effect with an outcome: that of the effects before it. -/
def ComesTo (a : Action) (user : Entity) (targets : List Entity) (f : Effect) (o : Outcome) : Prop :=
  ∃ before after, a.effects = before ++ f :: after ∧
    before.foldlM a.step ⟨Cast.ofTargets user targets, [], 0⟩ = .ok o

/-- Whether an effect comes to a place with an outcome: everyone that it touches has the attribute,
and it has touched the places before. -/
def Touches (a : Action) (f : Effect) (o : Outcome) (place : Nat) (o' : Outcome) : Prop :=
  ∃ earlier later, a.touched o.cast f.scope = .ok (earlier ++ place :: later) ∧
    ((earlier ++ place :: later).forM fun p ↦ a.member o.cast p >>= fun e ↦ discard (slot f e)) =
      .ok () ∧
    earlier.foldlM (a.touch f) o = .ok o'

/-- The places that are looked up when an effect comes to a place: the user's, the place itself, and
the target's. -/
def looksAt (f : Effect) (c : Cast) (place : Nat) : List Nat :=
  Cast.userPlace :: place :: (match f.scope with
    | .user => c.targets.head?
    | .single | .every => some place).toList

theorem outline_of_comesTo (h : a.ComesTo user targets f o) :
    o.cast.outline = (Cast.ofTargets user targets).outline := by
  obtain ⟨before, after, -, hbefore⟩ := h
  exact foldlM_induct (P := fun o ↦ o.cast.outline = (Cast.ofTargets user targets).outline) rfl
    (fun _ _ _ _ ho hs ↦ (outline_step hs).trans ho) hbefore

theorem outline_of_touches (h : a.Touches f o place o') : o'.cast.outline = o.cast.outline := by
  obtain ⟨_, _, -, -, hearlier⟩ := h
  exact outline_touches hearlier

theorem mem_of_touched (h : a.touched c f.scope = .ok places) (hplace : place ∈ places) :
    place ∈ Cast.userPlace :: c.targets := by
  cases hscope : f.scope with
  | user =>
    rw [hscope] at h
    obtain rfl := Except.ok.inj h
    exact List.mem_cons.mpr (.inl (List.mem_singleton.mp hplace))
  | single =>
    rw [hscope, touched, bind_eq_ok_iff] at h
    obtain ⟨first, hfirst, h⟩ := h
    obtain rfl := pure_eq_ok_iff.mp h
    obtain rfl := List.mem_singleton.mp hplace
    exact List.mem_cons_of_mem _ (List.mem_of_mem_head? (need_eq_ok_iff.mp hfirst))
  | every =>
    rw [hscope, touched] at h
    split at h
    · cases h
    · obtain rfl := Except.ok.inj h
      exact List.mem_cons_of_mem _ hplace

theorem lt_length_of_looksAt (hc : c.InRange) (hplace : place ∈ Cast.userPlace :: c.targets) :
    ∀ i ∈ looksAt f c place, i < c.members.length := by
  refine List.forall_mem_cons.mpr ⟨hc _ List.mem_cons_self,
    List.forall_mem_cons.mpr ⟨hc _ hplace, fun i hi ↦ hc i ?_⟩⟩
  rw [Option.mem_toList] at hi
  split at hi
  · exact List.mem_cons_of_mem _ (List.mem_of_mem_head? hi)
  all_goals exact Option.some.inj hi ▸ hplace

/-- **A slot that was found is found again.** -/
theorem exists_slot_of_touches (h : a.Touches f o place o') :
    ∃ m s, a.member o'.cast place = .ok m ∧ slot f m = .ok s := by
  have hattrs := Cast.attrs_of_outline (outline_of_touches h) place
  obtain ⟨earlier, later, -, hcheck, -⟩ := h
  obtain ⟨m, hm, hslot⟩ := bind_eq_ok_iff.mp (forM_eq_ok_iff.mp hcheck place (by simp))
  obtain ⟨s, hs⟩ := discard_eq_ok_iff.mp hslot
  rw [member_eq_ok_iff.mp hm, Option.map_some, Option.map_eq_some_iff] at hattrs
  obtain ⟨m', hm', hsame⟩ := hattrs
  have hsome : m'.slot? f.attr ≠ none := by
    rw [ne_eq, Entity.slot?_eq_none_iff, hsame, ← Entity.slot?_eq_none_iff, slot_eq_ok_iff.mp hs]
    simp
  obtain ⟨s', hs'⟩ := Option.ne_none_iff_exists'.mp hsome
  exact ⟨m', s', member_eq_ok_iff.mpr hm', slot_eq_ok_iff.mpr hs'⟩

/-- **Every place that is looked up is there.** The cast of an action is an index of the user and
the targets, and every effect keeps its outline. Whenever an action comes to an effect, the places
that the effect touches have members. Whenever the effect comes to a place, the outline is still the
same, the places that are looked up then have members, and the member at the place has a slot for
the attribute. -/
theorem places_sound (user : Entity) (targets : List Entity) :
    (Cast.ofTargets user targets).Indexes user targets ∧
      (∀ (a : Action) f o o', a.step o f = .ok o' → o'.cast.outline = o.cast.outline) ∧
      ∀ (a : Action) f o, a.ComesTo user targets f o →
        (∀ places, a.touched o.cast f.scope = .ok places →
            ∀ place ∈ places, place < o.cast.members.length) ∧
          ∀ place o', a.Touches f o place o' →
            o'.cast.outline = o.cast.outline ∧
              (∀ i ∈ looksAt f o'.cast place, i < o'.cast.members.length) ∧
              ∃ m s, a.member o'.cast place = .ok m ∧ slot f m = .ok s := by
  refine ⟨Cast.indexes_ofTargets user targets, fun a f o o' ↦ outline_step, ?_⟩
  intro a f o hcomes
  have hrange : o.cast.InRange :=
    (Cast.indexes_ofTargets user targets).inRange.of_outline (outline_of_comesTo hcomes)
  refine ⟨fun places hplaces place hplace ↦ hrange place (mem_of_touched hplaces hplace), ?_⟩
  intro place o' htouches
  have houtline := outline_of_touches htouches
  refine ⟨houtline, lt_length_of_looksAt (hrange.of_outline houtline) ?_,
    exists_slot_of_touches htouches⟩
  obtain ⟨earlier, later, htouched, -, -⟩ := htouches
  rw [show o'.cast.targets = o.cast.targets from congrArg Prod.snd houtline]
  exact mem_of_touched htouched (by simp)

/-- Whoever is told knows. -/
def telling : Effect := ⟨"knows", .every, .assign, .literal (.boolean true), none⟩

/-- One who may know or not. -/
def villager (name : String) (knows : Bool) : Entity :=
  ⟨name, [⟨"knows", .boolean, .boolean knows⟩], []⟩

/-- A villager tells another one, and then itself, and then the other one again. -/
theorem places_sound_gossip :
    let gossip : Action := ⟨"gossip", [telling]⟩
    let user := villager "Ann" false
    let targets := [villager "Bob" false, user, villager "Bob" false]
    let o : Outcome := ⟨⟨[user, villager "Bob" false], [1, 0, 1]⟩, [], 0⟩
    let o' : Outcome := ⟨⟨[villager "Ann" true, villager "Bob" true], [1, 0, 1]⟩,
      [⟨"Bob", "knows", .boolean false, .boolean true⟩,
        ⟨"Ann", "knows", .boolean false, .boolean true⟩], 0⟩
    (Cast.ofTargets user targets).Indexes user targets ∧ gossip.ComesTo user targets telling o ∧
      gossip.Touches telling o 1 o' ∧
      ∃ m s, gossip.member o'.cast 1 = .ok m ∧ slot telling m = .ok s := by
  intro gossip user targets o o'
  have hcomes : gossip.ComesTo user targets telling o := ⟨[], [], rfl, by decide⟩
  have htouches : gossip.Touches telling o 1 o' := ⟨[1, 0], [], rfl, rfl, by decide⟩
  obtain ⟨hindexes, -, h⟩ := places_sound user targets
  exact ⟨hindexes, hcomes, htouches, ((h gossip telling o hcomes).2 1 o' htouches).2.2⟩

end Action

end Tabletop
