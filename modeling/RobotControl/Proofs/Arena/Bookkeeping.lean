import Mathlib.Data.Finset.Card
import RobotControl.Proofs.Arena.Atomicity
import RobotControl.Proofs.Arena.Energy
import RobotControl.Proofs.Execution.Recording

/-!
The journal accounts for everything.

Every attempt makes one entry, and whatever an execution changed can be read off its entries: what
was shot, what was picked up and what was paid.

* `Arena.Accounted`: the entries account for the way from one arena to another.
* `Arena.accounted_attempt`: one attempt is accounted for by its entry.
* `Arena.Accounted.trans`: accounts are continued by appending entries.
* `Arena.accounted_of_executed`: every run and every number of steps is accounted for by its own
  attempts, in their order.
-/

namespace RobotControl

/-- What an action takes from the store. Picking up takes nothing. -/
def Costs.price? (c : Costs) : Action → Option Float
  | .move => some c.move
  | .turnClockwise | .turnCounterclockwise => some c.turn
  | .shoot => some c.shoot
  | .pickUpAndUse => none

/-- What an entry leaves of an amount of energy. A refused action costs nothing. -/
def Costs.charged (c : Costs) (energy : Float) (entry : Attempt) : Float :=
  match entry.outcome, c.price? entry.action with
  | .applied, some price => energy - price
  | _, _ => energy

namespace Arena

variable {a b c : Arena} {action : Action} {cell : Cell} {entries later : List Attempt}

/-- The arena after attempts of some actions, one after another. -/
def after (a : Arena) (actions : List Action) : Arena :=
  actions.foldl (fun a action => (a.attempt action).2) a

/-- The cells that hold batteries in one arena and none in another. -/
def emptied (a b : Arena) : List Cell :=
  a.batteries.cells.filter fun cell => !b.batteries.holds cell

/-- The cells that shots empty of batteries when actions are attempted one after another. -/
def shotAway : Arena → List Action → List Cell
  | _, [] => []
  | a, action :: rest =>
    let b := (a.attempt action).2
    (if action = .shoot then a.emptied b else []) ++ b.shotAway rest

/-- The other robots that are in one arena and not in another. -/
def missing (a b : Arena) : Finset Cell :=
  a.others.toFinset \ b.others.toFinset

/-- The entries account for the way from one arena to another. -/
structure Accounted (a : Arena) (entries : List Attempt) (b : Arena) : Prop where
  /-- The actions in the entries lead from the one to the other. -/
  replayed : b = a.after (entries.map Attempt.action)
  /-- The entries are what was added to the journal. -/
  journal : b.journal.toList = a.journal.toList ++ entries
  grid : b.grid = a.grid
  walls : b.walls = a.walls
  costs : b.costs = a.costs
  others : b.others ⊆ a.others
  /-- Of every pile the batteries that were placed first are left, or none. -/
  charges : ∀ cell, b.batteries.chargesAt cell <+: a.batteries.chargesAt cell
  /-- What was picked up and what is left was there before. -/
  pickUps : entries.count ⟨.pickUpAndUse, .applied⟩ + b.batteries.count ≤ a.batteries.count
  /-- A shot removes one robot or empties one cell. -/
  hits : (a.missing b).card + (a.shotAway (entries.map Attempt.action)).length ≤
    entries.count ⟨.shoot, .applied⟩
  /-- Without batteries the energy goes down by what was carried out, entry after entry. -/
  energy : ⟨.pickUpAndUse, .applied⟩ ∉ entries →
    b.robot.energy = entries.foldl a.costs.charged a.robot.energy

/-! ### Accounts are continued -/

theorem after_append (a : Arena) (actions rest : List Action) :
    a.after (actions ++ rest) = (a.after actions).after rest :=
  List.foldl_append

theorem shotAway_append (a : Arena) (actions rest : List Action) :
    a.shotAway (actions ++ rest) = a.shotAway actions ++ (a.after actions).shotAway rest := by
  induction actions generalizing a with
  | nil => rfl
  | cons action actions ih =>
      simp only [List.cons_append, shotAway, ih, List.append_assoc]
      rfl

theorem card_missing_le (a b c : Arena) :
    (a.missing c).card ≤ (a.missing b).card + (b.missing c).card := by
  refine (Finset.card_le_card ?_).trans (Finset.card_union_le _ _)
  exact sdiff_triangle _ _ _

theorem Accounted.refl (a : Arena) : Accounted a [] a where
  replayed := rfl
  journal := (List.append_nil _).symm
  grid := rfl
  walls := rfl
  costs := rfl
  others := List.Subset.refl _
  charges := fun _ => List.prefix_rfl
  pickUps := by simp
  hits := by simp [missing, shotAway]
  energy := fun _ => rfl

/-- **Accounts are continued by appending entries.** -/
theorem Accounted.trans (first : Accounted a entries b) (second : Accounted b later c) :
    Accounted a (entries ++ later) c where
  replayed := by
    rw [List.map_append, after_append, ← first.replayed]
    exact second.replayed
  journal := by rw [second.journal, first.journal, List.append_assoc]
  grid := second.grid.trans first.grid
  walls := second.walls.trans first.walls
  costs := second.costs.trans first.costs
  others := List.Subset.trans second.others first.others
  charges := fun cell => (second.charges cell).trans (first.charges cell)
  pickUps := by
    have h := first.pickUps
    have h' := second.pickUps
    rw [List.count_append]
    omega
  hits := by
    have h := first.hits
    have h' := second.hits
    have hrobots := card_missing_le a b c
    -- The later shots are replayed from where the first entries lead, which is `b`.
    rw [List.map_append, shotAway_append, ← first.replayed, List.length_append, List.count_append]
    omega
  energy := by
    intro hnone
    rw [List.mem_append, not_or] at hnone
    rw [second.energy hnone.2, first.energy hnone.1, first.costs, List.foldl_append]

/-! ### What a hit takes away -/

theorem missing_of_others_eq (h : b.others = a.others) : a.missing b = ∅ := by
  rw [missing, h, Finset.sdiff_self]

/-- Where the batteries stay, no cell is emptied. -/
theorem emptied_of_batteries_eq (h : b.batteries = a.batteries) : a.emptied b = [] := by
  rw [emptied, h]
  refine List.filter_eq_nil_iff.mpr ?_
  intro cell hcell
  simpa using Batteries.holds_iff_mem_cells.mpr hcell

/-- Clearing a cell empties no other one. -/
theorem length_emptied_le_of_clear (once : a.batteries.cells.Nodup) {target : Cell}
    (h : b.batteries = a.batteries.clear target) : (a.emptied b).length ≤ 1 := by
  have honly : a.emptied b = a.batteries.cells.filter (· == target) := by
    refine List.filter_congr ?_
    intro cell hcell
    have hholds := Batteries.holds_iff_mem_cells.mpr hcell
    simp only [h, Batteries.holds, Batteries.pile?_clear] at hholds ⊢
    by_cases hc : cell = target <;> simp [hc, hholds]
  rw [honly, ← List.count_eq_length_filter]
  exact List.nodup_iff_count_le_one.mp once target

/-- What a shot may take from an arena: robots and batteries, but only one robot or the batteries of
one cell. -/
structure Shot (a b : Arena) : Prop where
  others : b.others ⊆ a.others
  charges : ∀ cell, b.batteries.chargesAt cell <+: a.batteries.chargesAt cell
  count_le : b.batteries.count ≤ a.batteries.count
  hits : (a.missing b).card + (a.emptied b).length ≤ 1

theorem Shot.nothing (others : b.others = a.others) (batteries : b.batteries = a.batteries) :
    Shot a b where
  others := by rw [others]; exact List.Subset.refl _
  charges := fun cell => by rw [batteries]
  count_le := by rw [batteries]
  hits := by simp [missing_of_others_eq others, emptied_of_batteries_eq batteries]

/-- **A hit takes away one robot or the batteries of one cell.** -/
theorem WellPlaced.shot_of_hit (ha : a.WellPlaced) (target : Cell) : Shot a (a.hit target) := by
  rcases hit_cases a target with ⟨-, hhit⟩ | ⟨-, hhit⟩
  · have hothers : (a.hit target).others = a.others.filter (· ≠ target) := by rw [hhit]
    have hbatteries : (a.hit target).batteries = a.batteries := by rw [hhit]
    have honly : a.missing (a.hit target) ⊆ {target} := by
      intro cell hcell
      simp only [missing, hothers, Finset.mem_sdiff, List.mem_toFinset, List.mem_filter] at hcell
      simpa [hcell.1] using hcell.2
    constructor
    · rw [hothers]
      exact List.filter_subset_self _
    · intro cell
      rw [hbatteries]
    · rw [hbatteries]
    · rw [emptied_of_batteries_eq hbatteries]
      exact Finset.card_le_card honly
  · have hothers : (a.hit target).others = a.others := by rw [hhit]
    have hbatteries : (a.hit target).batteries = a.batteries.clear target := by rw [hhit]
    constructor
    · rw [hothers]
      exact List.Subset.refl _
    · intro cell
      rw [hbatteries, Batteries.chargesAt, Batteries.pile?_clear]
      split
      · exact List.nil_prefix
      · exact List.prefix_rfl
    · rw [hbatteries, ← Batteries.count_clear ha.piles.once]
      exact Nat.le_add_right _ _
    · rw [missing_of_others_eq hothers, Finset.card_empty, Nat.zero_add]
      exact length_emptied_le_of_clear ha.piles.once hbatteries

/-- **A shot takes away one robot or the batteries of one cell, or nothing.** -/
theorem WellPlaced.shot_of_paid (ha : a.WellPlaced) (cost : Float) : Shot a (a.paid cost).shot := by
  rcases shot_cases (a.paid cost) with ⟨-, hshot⟩ | ⟨target, -, hshot⟩
  · rw [hshot]
    exact .nothing rfl rfl
  · rw [hshot]
    exact { (ha.paid cost).shot_of_hit target with }

/-! ### One attempt -/

theorem missing_enter (a b : Arena) (entry : Attempt) : a.missing (b.enter entry) = a.missing b :=
  rfl

theorem emptied_enter (a b : Arena) (entry : Attempt) : a.emptied (b.enter entry) = a.emptied b :=
  rfl

/-- What is to be shown of one attempt and its entry. -/
theorem Accounted.single {entry : Attempt} (attempted : (a.attempt entry.action).2 = b.enter entry)
    (kept : b.grid = a.grid ∧ b.walls = a.walls ∧ b.costs = a.costs ∧ b.journal = a.journal)
    (others : b.others ⊆ a.others)
    (charges : ∀ cell, b.batteries.chargesAt cell <+: a.batteries.chargesAt cell)
    (pickUps : [entry].count ⟨.pickUpAndUse, .applied⟩ + b.batteries.count ≤ a.batteries.count)
    (hits : (a.missing b).card + (if entry.action = .shoot then a.emptied b else []).length ≤
      [entry].count ⟨.shoot, .applied⟩)
    (energy : entry ≠ ⟨.pickUpAndUse, .applied⟩ →
      b.robot.energy = a.costs.charged a.robot.energy entry) :
    Accounted a [entry] (b.enter entry) where
  replayed := attempted.symm
  journal := by
    rw [enter, kept.2.2.2, Array.toList_push]
  grid := kept.1
  walls := kept.2.1
  costs := kept.2.2.1
  others := others
  charges := charges
  pickUps := pickUps
  hits := by
    simpa [shotAway, attempted, missing_enter, emptied_enter] using hits
  energy := by
    intro hnone
    exact energy fun heq => hnone (heq ▸ List.mem_singleton_self _)

/-- A refused attempt changed nothing and cost nothing. -/
theorem accounted_of_refused {why : Refusal}
    (h : a.attempt action = (.refused why, a.enter ⟨action, .refused why⟩)) :
    Accounted a [⟨action, .refused why⟩] (a.enter ⟨action, .refused why⟩) := by
  apply Accounted.single (by rw [h]) ⟨rfl, rfl, rfl, rfl⟩
  · exact List.Subset.refl _
  · exact fun cell => List.prefix_rfl
  · simp
  · simp [missing_of_others_eq, emptied_of_batteries_eq]
  · exact fun _ => rfl

/-- An action that only moves or turns the robot is accounted for by its price. -/
theorem accounted_of_kept {price : Float}
    (attempted : a.attempt action = (.applied, b.enter ⟨action, .applied⟩))
    (kept : b.grid = a.grid ∧ b.walls = a.walls ∧ b.costs = a.costs ∧ b.journal = a.journal)
    (others : b.others = a.others) (batteries : b.batteries = a.batteries)
    (named : a.costs.price? action = some price) (paid : b.robot.energy = a.robot.energy - price) :
    Accounted a [⟨action, .applied⟩] (b.enter ⟨action, .applied⟩) := by
  have hpriced : action ≠ .pickUpAndUse := by
    rintro rfl
    cases named
  apply Accounted.single (by rw [attempted]) kept
  · rw [others]
    exact List.Subset.refl _
  · intro cell
    rw [batteries]
  · simp [batteries, hpriced]
  · simp [missing_of_others_eq others, emptied_of_batteries_eq batteries]
  · intro _
    rw [Costs.charged, named, paid]

/-- An applied action is accounted for by its entry. -/
theorem accounted_of_carried (ha : a.WellPlaced) (carried : Carried a action b)
    (attempted : a.attempt action = (.applied, b.enter ⟨action, .applied⟩)) :
    Accounted a [⟨action, .applied⟩] (b.enter ⟨action, .applied⟩) := by
  have kept := (carried.confined ha).kept
  cases carried with
  | move => exact accounted_of_kept attempted kept rfl rfl rfl rfl
  | turnClockwise => exact accounted_of_kept attempted kept rfl rfl rfl rfl
  | turnCounterclockwise => exact accounted_of_kept attempted kept rfl rfl rfl rfl
  | shoot =>
      have shot := ha.shot_of_paid a.costs.shoot
      apply Accounted.single (by rw [attempted]) kept shot.others shot.charges
      · simpa using shot.count_le
      · simpa using shot.hits
      · intro _
        rw [shot_robot]
        rfl
  | @pickUpAndUse charge batteries taken =>
      obtain ⟨own, others⟩ := Batteries.pile?_take taken
      apply Accounted.single (by rw [attempted]) kept
      · exact List.Subset.refl _
      · intro cell
        by_cases hcell : cell = a.robot.cell
        · rw [hcell, own]
          exact List.prefix_append _ _
        · rw [Batteries.chargesAt, Batteries.chargesAt, others cell hcell]
      · have hcount := ha.piles.count_take taken
        simp only [List.count_singleton_self]
        omega
      · simp [missing_of_others_eq]
      · exact fun hother => absurd rfl hother

/-- **One attempt is accounted for by its entry.** -/
theorem accounted_attempt (ha : a.WellPlaced) (action : Action) :
    Accounted a [⟨action, (a.attempt action).1⟩] (a.attempt action).2 := by
  rcases attempt_cases action a with ⟨b, carried, heq⟩ | ⟨why, -, heq⟩
  · have accounted := accounted_of_carried ha carried heq
    rwa [heq]
  · have accounted := accounted_of_refused heq
    rwa [heq]

/-! ### Executions -/

theorem reaches_after (a : Arena) (actions : List Action) : Reaches a (a.after actions) := by
  induction actions generalizing a with
  | nil => exact .refl
  | cons action actions ih => exact (Reaches.attempt action .refl).trans (ih _)

theorem Accounted.wellPlaced (h : Accounted a entries b) (ha : a.WellPlaced) : b.WellPlaced := by
  rw [h.replayed]
  exact ha.reached (a.reaches_after _)

/-- **Whatever a recorded execution comes to is accounted for by the attempts in its log.** -/
theorem accounted_of_reaches {r t : Recorded Arena} (h : Reaches r t) (ha : r.state.WellPlaced) :
    ∃ entries, Event.attempts t.events = Event.attempts r.events ++ entries ∧
      Accounted r.state entries t.state := by
  induction h with
  | refl => exact ⟨[], by simp, .refl _⟩
  | @sense t sensor _ ih =>
      have looked : Recorded.ReadsOnly t (World.sense sensor t).2 := .note rfl _ _
      rw [looked.attempts]
      exact ih
  | @energy t _ ih =>
      have looked : Recorded.ReadsOnly t (World.energy t).2 := .note rfl _ _
      rw [looked.attempts]
      exact ih
  | @attempt t action _ ih =>
      obtain ⟨entries, attempts, accounted⟩ := ih
      have last := accounted_attempt (accounted.wellPlaced ha) action
      refine ⟨_, ?_, accounted.trans last⟩
      have events : (World.attempt action t).2.events = t.events ++ [.attempted ⟨action, _⟩] :=
        Recorded.events_note _ t _
      rw [events, Event.attempts_append, attempts, List.append_assoc]
      rfl

/-- **Steps are accounted for by what they deliver.** -/
theorem accounted_of_stepMore {n delivered count : Nat} {r r' : Runner} (ha : a.WellPlaced)
    (h : Runner.stepMore n delivered r a = .ok (count, r', b)) :
    Accounted a ((r.deliveries n a).map Prod.snd) b := by
  induction n generalizing delivered r a with
  | zero =>
      cases h
      exact .refl _
  | succ n ih =>
      rw [Runner.stepMore] at h
      rw [Runner.deliveries]
      rcases r.step_cases a with
        ⟨-, none⟩ | ⟨p, -, ⟨t, hn, done⟩ | ⟨index, t, action, hn, -, executed⟩⟩
      · rw [none] at h
        cases h
      · have looked := (p.next_reads r.cursor a).eq
        rw [hn] at looked
        rw [done] at h ⊢
        cases h
        cases looked
        exact .refl _
      · -- Looking for the next step leaves an arena alone, so the attempt is made in `a` itself.
        have looked := (p.next_reads r.cursor a).eq
        rw [hn] at looked
        rw [executed] at h ⊢
        cases looked
        have first := accounted_attempt ha action
        exact first.trans (ih (first.wellPlaced ha) h)

/-- **The books balance.** In an arena that was built and in which anything was done, a run that ends
and any number of steps from any cursor answer how many actions they attempted, and these attempts
account for all that they changed. -/
theorem accounted_of_executed {costs : Costs} {start : Arena} (built : Built costs start)
    (operated : Operated start a) (p : Program) :
    (∀ passes n b, p.run passes a = some (n, b) → ∃ e : Recorded Arena, e.state = b ∧
        p.run passes (Recorded.fresh a) = some (n, e) ∧
        (Event.attempts e.events).length = n ∧ Accounted a (Event.attempts e.events) b) ∧
      ∀ cursor n, ∃ r b, Runner.stepN n ⟨some p, cursor⟩ a =
          .ok ((Runner.deliveries n ⟨some p, cursor⟩ a).length, r, b) ∧
        Accounted a ((Runner.deliveries n ⟨some p, cursor⟩ a).map Prod.snd) b := by
  have placed : a.WellPlaced := built.wellPlaced.reached operated.reaches
  constructor
  · intro passes n b run
    obtain ⟨e, rfl, recorded, attempts⟩ := Program.exists_recorded_of_run run
    refine ⟨e, rfl, recorded, attempts, ?_⟩
    obtain ⟨entries, log, accounted⟩ := accounted_of_reaches (Program.run_reaches recorded) placed
    have entered : Event.attempts e.events = entries := log
    rwa [entered]
  · intro cursor n
    obtain ⟨count, next, b, steps⟩ := Runner.stepN_never_fails p n cursor a
    have delivered := Runner.length_deliveries_of_stepN steps
    refine ⟨⟨some p, next⟩, b, ?_, accounted_of_stepMore placed steps⟩
    rw [← delivered]
    exact steps

/-- The first shot takes away the other robot in the corridor, the second one hits nothing and costs
as much, and for the third one the store is too low. -/
theorem accounted_of_executed_corridor :
    ∃ a b : Arena, corridor.build { shoot := 200.0 } = .ok a ∧
      (Program.seq [.act .shoot, .act .shoot, .act .shoot]).run 1 a = some (3, b) ∧
      Accounted a
        [⟨.shoot, .applied⟩, ⟨.shoot, .applied⟩, ⟨.shoot, .refused .insufficientEnergy⟩] b := by
  refine ⟨_, _, rfl, rfl, ?_⟩
  have built : Built { shoot := 200.0 } _ :=
    .layout (rfl : corridor.build { shoot := 200.0 } = .ok _)
  obtain ⟨e, -, recorded, -, accounted⟩ := (accounted_of_executed built .refl _).1 1 3 _
    (rfl : (Program.seq [.act .shoot, .act .shoot, .act .shoot]).run 1 _ = some (3, _))
  cases recorded
  exact accounted

end Arena

end RobotControl
