import Tabletop.Proofs.RuleSet.Replay

/-!
# Uses that do not meet

A use of an action looks up the rows of its user and its targets, and writes the working copies of
those and no others. So two uses in which nobody takes part twice do not notice each other: each
answers what it answers alone, be it a report or an error, and in either order they leave the same
rule set (`useAction_comm`).

An error writes nothing, so the one thing to see is that rows that are put in the places of others
change no look-up of the other use and can be put in either order. Neither asks for unique names.
-/

namespace Tabletop

namespace RuleSet

variable {w w' : RuleSet} {user action user' action' : String} {targets targets' : List String}
  {o : Outcome}

/-- The rule set with the working copies of a rehearsal in their places, if it went well. -/
def settle (w : RuleSet) : Except RuleError Outcome → RuleSet
  | .ok o => { w with entities := w.entities.putAll o.cast.members }
  | .error _ => w

theorem perform_useAction_eq (w : RuleSet) (user action : String) (targets : List String) :
    w.perform (useAction user action targets) =
      (w.rehearse user action targets, w.settle (w.rehearse user action targets)) := by
  rw [perform_useAction]
  cases w.rehearse user action targets <;> rfl

/-- A use reads the actions, and the rows of its user and its targets. -/
theorem rehearse_congr (hactions : w'.actions = w.actions)
    (hentities : ∀ name ∈ user :: targets, w'.entities.get? name = w.entities.get? name) :
    w'.rehearse user action targets = w.rehearse user action targets := by
  have hknown : ∀ name ∈ user :: targets, w'.knownEntity name = w.knownEntity name :=
    fun name hname ↦ by rw [knownEntity, knownEntity, hentities name hname]
  obtain ⟨huser, htargets⟩ := List.forall_mem_cons.mp hknown
  rw [rehearse, rehearse, huser, knownAction, knownAction, hactions, mapM_congr htargets]

/-- A use writes rows of its user and its targets. -/
theorem mem_of_rehearse (h : w.rehearse user action targets = .ok o) {m : Entity}
    (hm : m ∈ o.cast.members) : m.name ∈ user :: targets := by
  rw [← List.mem_eraseDups, ← (seats_of_rehearse h).2]
  exact List.mem_map_of_mem hm

theorem disjoint_of_rehearse {o' : Outcome} (h : (user :: targets).Disjoint (user' :: targets'))
    (ho : w.rehearse user action targets = .ok o)
    (ho' : w.rehearse user' action' targets' = .ok o') :
    (o.cast.members.map Named.name).Disjoint (o'.cast.members.map Named.name) := by
  rintro name hname hname'
  obtain ⟨m, hm, rfl⟩ := List.mem_map.mp hname
  obtain ⟨m', hm', hsame⟩ := List.mem_map.mp hname'
  refine h (mem_of_rehearse ho hm) ?_
  change Named.name m ∈ _
  rw [← hsame]
  exact mem_of_rehearse ho' hm'

/-- A use does not notice one in which none of its own takes part. -/
theorem rehearse_settle (h : (user :: targets).Disjoint (user' :: targets')) :
    (w.settle (w.rehearse user' action' targets')).rehearse user action targets =
      w.rehearse user action targets := by
  cases ho : w.rehearse user' action' targets' with
  | error e => rfl
  | ok o =>
    refine rehearse_congr rfl fun name hname ↦ Table.get?_putAll_of_not_mem fun hmem ↦ ?_
    obtain ⟨m, hm, rfl⟩ := List.mem_map.mp hmem
    exact h hname (mem_of_rehearse ho hm)

theorem settle_comm (h : (user :: targets).Disjoint (user' :: targets')) :
    (w.settle (w.rehearse user action targets)).settle (w.rehearse user' action' targets') =
      (w.settle (w.rehearse user' action' targets')).settle (w.rehearse user action targets) := by
  cases ho : w.rehearse user action targets with
  | error e => rfl
  | ok o =>
    cases ho' : w.rehearse user' action' targets' with
    | error e' => rfl
    | ok o' =>
      simp only [settle, Table.putAll_comm (disjoint_of_rehearse h ho ho')]

/-- **Uses that do not meet commute.** If no name occurs among the user and the targets of one use
and among those of another, each answers in either order what it answers alone, a result or an
error, and both orders leave the same rule set. -/
theorem useAction_comm (w : RuleSet) (action action' : String)
    (h : (user :: targets).Disjoint (user' :: targets')) :
    ∃ w', (w.perform (useAction user action targets)).2.perform
          (useAction user' action' targets') =
        ((w.perform (useAction user' action' targets')).1, w') ∧
      (w.perform (useAction user' action' targets')).2.perform (useAction user action targets) =
        ((w.perform (useAction user action targets)).1, w') := by
  simp only [perform_useAction_eq, rehearse_settle h, rehearse_settle h.symm]
  exact ⟨_, rfl, by rw [settle_comm h]⟩

/-- A tavern with two tables. -/
def tavern : RuleSet :=
  [.defineAttribute "mood" .text,
    .defineAction "toast"
      [⟨"mood", .every, .assign, .literal (.text "merry"),
          some ⟨"mood", .target, .ne, .text "asleep"⟩⟩,
        ⟨"mood", .user, .assign, .literal (.text "generous"), none⟩],
    .defineEntity "Ann" [⟨"mood", .text, .text "dull"⟩] ["toast"],
    .defineEntity "Bob" [⟨"mood", .text, .text "cross"⟩] [],
    .defineEntity "Cid" [⟨"mood", .text, .text "dull"⟩] ["toast"],
    .defineEntity "Dan" [⟨"mood", .text, .text "asleep"⟩] []].foldl after (.empty "tavern")

theorem useAction_comm_tavern :
    ["Ann", "Bob"].Disjoint ["Cid", "Dan"] ∧
    ∃ o o' w',
      (tavern.perform (useAction "Ann" "toast" ["Bob"])).1 = .ok o ∧
      (tavern.perform (useAction "Cid" "toast" ["Dan"])).1 = .ok o' ∧
      (tavern.perform (useAction "Ann" "toast" ["Bob"])).2.perform
        (useAction "Cid" "toast" ["Dan"]) = (.ok o', w') ∧
      (tavern.perform (useAction "Cid" "toast" ["Dan"])).2.perform
        (useAction "Ann" "toast" ["Bob"]) = (.ok o, w') ∧
      o.skipped = 0 ∧ o'.skipped = 1 ∧
      w'.entities.rows.map (·.value? "mood") =
        [some (.text "generous"), some (.text "merry"), some (.text "generous"),
          some (.text "asleep")] := by
  have hdisjoint : ["Ann", "Bob"].Disjoint ["Cid", "Dan"] := by simp
  have hann : (tavern.perform (useAction "Ann" "toast" ["Bob"])).1.map Outcome.skipped = .ok 0 := by
    decide +kernel
  have hcid : (tavern.perform (useAction "Cid" "toast" ["Dan"])).1.map Outcome.skipped = .ok 1 := by
    decide +kernel
  have hmoods : ((tavern.perform (useAction "Ann" "toast" ["Bob"])).2.perform
      (useAction "Cid" "toast" ["Dan"])).2.entities.rows.map (·.value? "mood") =
        [some (.text "generous"), some (.text "merry"), some (.text "generous"),
          some (.text "asleep")] := by
    decide +kernel
  obtain ⟨o, ho, hskipped⟩ := except_map_eq_ok_iff.mp hann
  obtain ⟨o', ho', hskipped'⟩ := except_map_eq_ok_iff.mp hcid
  obtain ⟨w', hannFirst, hcidFirst⟩ := useAction_comm tavern "toast" "toast" hdisjoint
  rw [hannFirst] at hmoods
  rw [ho'] at hannFirst
  rw [ho] at hcidFirst
  exact ⟨hdisjoint, o, o', w', ho, ho', hannFirst, hcidFirst, hskipped, hskipped', hmoods⟩

end RuleSet

end Tabletop
