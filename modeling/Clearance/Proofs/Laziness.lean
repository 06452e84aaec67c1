import Clearance.Proofs.Gates
import Mathlib.Data.List.Induction

/-!
# Lazy gates

A gate has a value on every list of inputs, and some of the inputs can be enough to say which.  What
a gate keeps of the inputs it has read tells exactly when they are enough, so that a gate that is
run stops at the first input that settles its value, and not before.  Inputs after that one are not
taken, whatever it would take to get them.
-/

namespace Clearance

namespace Gate

/-! ## Values -/

/-- The truth function of a gate. -/
def truth : Gate → List Bool → Bool
  | and, values => values.all id
  | nand, values => !values.all id
  | or, values => values.any id
  | nor, values => !values.any id
  | xor, values => values.any id && values.any (!·)
  | not, values => !values.headD false

/-- What is known after reading these inputs. -/
def Seen.of (values : List Bool) : Seen := values.foldl Seen.add {}

/-- One more input is added to what is known. -/
theorem Seen.of_concat (values : List Bool) (value : Bool) :
    Seen.of (values ++ [value]) = (Seen.of values).add value := by
  rw [Seen.of, List.foldl_append, List.foldl_cons, List.foldl_nil, ← Seen.of]

/-- It is known whether one of the inputs was true. -/
@[simp] theorem Seen.anyTrue_of (values : List Bool) :
    (Seen.of values).anyTrue = values.any id := by
  induction values using List.reverseRecOn with
  | nil => rfl
  | append_singleton values value ih =>
      rw [Seen.of_concat, List.any_append, ← ih]
      cases value <;> simp [Seen.add]

/-- It is known whether one of the inputs was false. -/
@[simp] theorem Seen.anyFalse_of (values : List Bool) :
    (Seen.of values).anyFalse = values.any (!·) := by
  induction values using List.reverseRecOn with
  | nil => rfl
  | append_singleton values value ih =>
      rw [Seen.of_concat, List.any_append, ← ih]
      cases value <;> simp [Seen.add]

/-- All inputs are true if none is false. -/
theorem all_eq_not_any (values : List Bool) : values.all id = !values.any (!·) := by
  rw [List.all_eq_not_any_not]
  rfl

/-- What is known of all inputs gives the value of the gate. -/
theorem verdict_of {g : Gate} {values : List Bool} (hadmits : g.admits values.length = true) :
    g.verdict (Seen.of values) = g.truth values := by
  cases g with
  | and | nand => simp [verdict, truth, all_eq_not_any]
  | or | nor | xor => simp [verdict, truth]
  | not =>
      obtain ⟨value, rfl⟩ := List.length_eq_one_iff.1 (admits_not_iff.1 hadmits)
      simp [verdict, truth]

/-- A gate over known inputs has the value of its truth function. -/
theorem apply_eq_truth (g : Gate) (values : List Bool) : g.apply values = g.truth values := by
  have hknown : g.apply values = Id.run (g.runFrom {} (values.map pure)) := rfl
  rw [hknown]
  cases g with
  | and => rw [runFrom_and rfl, untilFalse_known, truth]
  | nand =>
      rw [runFrom_opposite .and .nand (fun _ => rfl) (fun seen => by simp [verdict]),
        runFrom_and rfl]
      exact congrArg (!·) (untilFalse_known values)
  | or => rw [runFrom_or rfl, untilTrue_known, truth]
  | nor =>
      rw [runFrom_opposite .or .nor (fun _ => rfl) (fun _ => rfl), runFrom_or rfl]
      exact congrArg (!·) (untilTrue_known values)
  | xor => rw [runFrom_xor, untilBoth_known, Bool.false_or, Bool.false_or, truth]
  | not =>
      cases values with
      | nil => rfl
      | cons value rest =>
          -- whatever the first input is, it settles a negation
          rw [List.map_cons, runFrom_cons rfl]
          cases value <;> exact congrArg Id.run (runFrom_of_settled rfl _)

/-! ## When the inputs read are enough -/

/-- These first inputs of so many settle the value of a gate, whatever the others are. -/
structure Settles (g : Gate) (count : Nat) (values : List Bool) (value : Bool) : Prop where
  le : values.length ≤ count
  truth : ∀ others, (values ++ others).length = count → g.truth (values ++ others) = value

/-- No fewer inputs than these settle the value of a gate. -/
def Pending (g : Gate) (count : Nat) (values : List Bool) : Prop :=
  ∀ fewer, fewer <+: values → fewer ≠ values → ∀ value, ¬ g.Settles count fewer value

/-- These first inputs of so many settle the value of a gate, and no fewer of them do. -/
structure Stops (g : Gate) (count : Nat) (values : List Bool) (value : Bool) : Prop where
  settles : g.Settles count values value
  pending : g.Pending count values

/-- All inputs together settle the value. -/
theorem settles_of_all {g : Gate} {values : List Bool} (hadmits : g.admits values.length = true) :
    g.Settles values.length values (g.verdict (Seen.of values)) := by
  refine ⟨Nat.le_refl _, ?_⟩
  intro others hcount
  have hnone : others = [] := by
    rw [List.length_append] at hcount
    exact List.length_eq_zero_iff.1 (by omega)
  rw [hnone, List.append_nil, verdict_of hadmits]

/-- What is known of inputs is what is known of the first ones and of the others. -/
theorem Seen.of_append (values others : List Bool) :
    Seen.of (values ++ others) =
      ⟨(Seen.of values).anyTrue || (Seen.of others).anyTrue,
        (Seen.of values).anyFalse || (Seen.of others).anyFalse⟩ := by
  have hall : ∀ seen : Seen, seen = ⟨seen.anyTrue, seen.anyFalse⟩ := fun _ => rfl
  rw [hall (Seen.of (values ++ others))]
  simp only [Seen.anyTrue_of, Seen.anyFalse_of, List.any_append]

/-- Further inputs do not change the value of a gate that is settled, unless it is a negation, which
has no further inputs. -/
theorem verdict_append_of_settled {g : Gate} {values : List Bool} (hg : g ≠ .not)
    (hsettled : g.settled (Seen.of values) = true) (others : List Bool) :
    g.verdict (Seen.of (values ++ others)) = g.verdict (Seen.of values) := by
  rw [Seen.of_append]
  generalize Seen.of values = seen at hsettled
  generalize Seen.of others = seen'
  cases g <;> simp_all [settled, verdict]

/-- What is known of some inputs settles the value if no further input can change it. -/
theorem settles_of_settled {g : Gate} {count : Nat} {values : List Bool}
    (hadmits : g.admits count = true) (hle : values.length ≤ count)
    (hsettled : g.settled (Seen.of values) = true) :
    g.Settles count values (g.verdict (Seen.of values)) := by
  by_cases hg : g = .not
  · -- the only input of a negation has been read
    subst hg
    obtain rfl := admits_not_iff.1 hadmits
    have hone : values.length = 1 := by
      cases values with
      | nil => cases hsettled
      | cons value rest => simpa using hle
    rw [← hone] at hadmits ⊢
    exact settles_of_all hadmits
  · refine ⟨hle, ?_⟩
    intro others hcount
    rw [← verdict_of (by rwa [hcount]), verdict_append_of_settled hg hsettled]

/-- Two continuations with different values show that inputs settle nothing. -/
theorem not_settles_of_ne {g : Gate} {count : Nat} {values others others' : List Bool}
    (hcount : (values ++ others).length = count) (hcount' : (values ++ others').length = count)
    (hne : g.truth (values ++ others) ≠ g.truth (values ++ others')) (value : Bool) :
    ¬ g.Settles count values value := by
  intro hsettles
  exact hne ((hsettles.truth others hcount).trans (hsettles.truth others' hcount').symm)

/-- Where a gate is not settled, inputs that are all true and inputs that are all false lead to
different values, unless it is an exclusion that has read nothing. -/
theorem truth_replicate_ne {g : Gate} {values : List Bool}
    (hunsettled : g.settled (Seen.of values) = false) (hread : g = .xor → values ≠ [])
    (more : Nat) :
    g.truth (values ++ List.replicate (more + 1) true) ≠
      g.truth (values ++ List.replicate (more + 1) false) := by
  cases g with
  | and | nand | or | nor => simp_all [settled, truth, List.replicate_succ]
  | not =>
      cases values with
      | nil => simp [truth, List.replicate_succ]
      | cons value rest => cases value <;> simp [settled] at hunsettled
  | xor =>
      cases values with
      | nil => exact absurd rfl (hread rfl)
      | cons first rest => cases first <;> simp_all [settled, truth, List.replicate_succ]

/-- Two inputs of an exclusion can agree or differ. -/
theorem truth_xor_ne (more : Nat) :
    truth .xor (List.replicate (more + 2) true) ≠
      truth .xor (true :: List.replicate (more + 1) false) := by
  simp [truth, List.replicate_succ]

/-- Inputs after which a further one can change the value settle nothing. -/
theorem not_settles_of_unsettled {g : Gate} {count : Nat} {values : List Bool}
    (hadmits : g.admits count = true) (hlt : values.length < count)
    (hunsettled : g.settled (Seen.of values) = false) (value : Bool) :
    ¬ g.Settles count values value := by
  by_cases hread : g = .xor → values ≠ []
  · obtain ⟨more, rfl⟩ : ∃ more, count = values.length + (more + 1) :=
      ⟨count - values.length - 1, by omega⟩
    have hne := truth_replicate_ne hunsettled hread more
    exact not_settles_of_ne (by simp) (by simp) hne value
  · -- the first input of an exclusion decides nothing, and there is a second
    simp only [ne_eq, not_forall, not_not] at hread
    obtain ⟨rfl, rfl⟩ := hread
    have htwo : 2 ≤ count := (admits_iff.1 hadmits).1
    obtain ⟨more, rfl⟩ : ∃ more, count = more + 2 := ⟨count - 2, by omega⟩
    exact not_settles_of_ne (by simp) (by simp) (truth_xor_ne more) value

/-! ## Reading one input after the other -/

/-- Before anything has been read nothing less can have been. -/
theorem pending_nil (g : Gate) (count : Nat) : g.Pending count [] := by
  intro fewer hprefix hne
  exact absurd (List.prefix_nil.1 hprefix) hne

/-- A gate that is not settled goes on to the next input. -/
theorem Pending.concat {g : Gate} {count : Nat} {values : List Bool}
    (hpending : g.Pending count values) (hadmits : g.admits count = true)
    (hlt : values.length < count) (hunsettled : g.settled (Seen.of values) = false)
    (value : Bool) : g.Pending count (values ++ [value]) := by
  intro fewer hprefix hne
  rcases List.prefix_concat_iff.1 hprefix with heq | hprefix
  · exact absurd heq hne
  · by_cases hall : fewer = values
    · rw [hall]
      exact not_settles_of_unsettled hadmits hlt hunsettled
    · exact hpending fewer hprefix hall

/-- A gate that is settled, or has no further inputs, stops. -/
theorem Pending.stops {g : Gate} {count : Nat} {values : List Bool}
    (hpending : g.Pending count values) (hadmits : g.admits count = true)
    (hle : values.length ≤ count)
    (hdone : g.settled (Seen.of values) = true ∨ values.length = count) :
    g.Stops count values (g.verdict (Seen.of values)) := by
  refine ⟨?_, hpending⟩
  rcases hdone with hsettled | rfl
  · exact settles_of_settled hadmits hle hsettled
  · exact settles_of_all hadmits

/-! ## Taking inputs -/

/-- An input whose value is known before it is taken; taking it is an action. -/
def taking {m : Type → Type} [Monad m] {α : Type} (take : α → m Unit) (value : α → Bool)
    (item : α) : m Bool := do
  take item
  return value item

/-- A gate that knows so much of its inputs takes the first so many of further inputs with these
values, one after the other and nothing else, and then has this value.  What inputs there are, and
what taking one does, is left open. -/
def Reads (g : Gate) (seen : Seen) (values : List Bool) (number : Nat) (outcome : Bool) : Prop :=
  ∀ {m : Type → Type} [Monad m] [LawfulMonad m] {α : Type} (take : α → m Unit)
    (value : α → Bool) (items : List α), items.map value = values →
      g.runFrom seen (items.map (taking take value)) = do
        (items.take number).forM take
        return outcome

/-- A gate that is settled takes nothing. -/
theorem reads_of_settled {g : Gate} {seen : Seen} (hsettled : g.settled seen = true)
    (values : List Bool) : g.Reads seen values 0 (g.verdict seen) := by
  intro m _ _ α take value items _
  rw [runFrom_of_settled hsettled, List.take_zero, List.forM_eq_forM, List.forM_nil, pure_bind]

/-- Where there are no further inputs nothing is taken. -/
theorem reads_nil (g : Gate) (seen : Seen) : g.Reads seen [] 0 (g.verdict seen) := by
  intro m _ _ α take value items hvalues
  rw [List.map_eq_nil_iff.1 hvalues, List.map_nil, runFrom_nil, List.take_zero,
    List.forM_eq_forM, List.forM_nil, pure_bind]

/-- A gate that is not settled takes one input before all others. -/
theorem Reads.cons {g : Gate} {seen : Seen} {first : Bool} {rest : List Bool} {number : Nat}
    {outcome : Bool} (hrest : g.Reads (seen.add first) rest number outcome)
    (hunsettled : g.settled seen = false) : g.Reads seen (first :: rest) (number + 1) outcome := by
  intro m _ _ α take value items hvalues
  obtain ⟨item, others, rfl, rfl, hothers⟩ := List.map_eq_cons_iff.1 hvalues
  rw [List.map_cons, runFrom_cons hunsettled, taking, bind_assoc, List.take_succ_cons,
    List.forM_eq_forM, List.forM_cons, bind_assoc]
  -- both sides begin with taking this item, and go on alike
  congr 1
  funext _
  rw [pure_bind]
  exact hrest take value others hothers

/-- The value of a gate over known inputs is the one it has when it has taken what it takes. -/
theorem Reads.apply_eq {g : Gate} {values : List Bool} {number : Nat} {outcome : Bool}
    (h : g.Reads {} values number outcome) : g.apply values = outcome := by
  -- in the monad without effects taking is nothing
  exact h (m := Id) (fun _ => ()) id values (List.map_id values)

/-- Taking an input can be counting it. -/
def tally (_ : Bool) : StateM Nat Unit := modify (· + 1)

/-- An input that counts how often it is read is one whose taking is counted. -/
theorem counted_eq_taking : counted = taking tally id := rfl

/-- Counting adds one for each input taken. -/
theorem run_forM_tally (values : List Bool) (count : Nat) :
    (values.forM tally).run count = ((), count + values.length) := by
  induction values generalizing count with
  | nil => rfl
  | cons value rest ih =>
      rw [List.length_cons, Nat.add_comm rest.length, ← Nat.add_assoc]
      exact ih (count + 1)

/-- The inputs counted are those taken. -/
theorem Reads.applyCounted_eq {g : Gate} {values : List Bool} {number : Nat} {outcome : Bool}
    (h : g.Reads {} values number outcome) (hle : number ≤ values.length) :
    g.applyCounted values = (outcome, number) := by
  have hrun := h tally id values (List.map_id values)
  have hcount := run_forM_tally (values.take number) 0
  rw [List.length_take, Nat.min_eq_left hle, Nat.zero_add] at hcount
  rw [applyCounted, run, counted_eq_taking]
  show (g.runFrom {} (values.map (taking tally id))).run 0 = (outcome, number)
  rw [hrun, StateT.run_bind, hcount]
  rfl

/-- A gate takes inputs until they settle its value, if it admits their number. -/
theorem exists_reads {g : Gate} {count : Nat} (hadmits : g.admits count = true)
    {values rest : List Bool} (hcount : values.length + rest.length = count)
    (hpending : g.Pending count values) :
    ∃ read unread outcome, rest = read ++ unread ∧ g.Stops count (values ++ read) outcome ∧
      g.Reads (.of values) rest read.length outcome := by
  -- what is carried along is that fewer inputs than those read so far settle nothing
  induction rest generalizing values with
  | nil =>
      have hstops := hpending.stops hadmits (by omega) (Or.inr (by simpa using hcount))
      refine ⟨[], [], _, rfl, ?_, reads_nil g (.of values)⟩
      rwa [List.append_nil]
  | cons first rest ih =>
      rw [List.length_cons] at hcount
      cases hsettled : g.settled (.of values) with
      | true =>
          have hstops := hpending.stops hadmits (by omega) (Or.inl hsettled)
          refine ⟨[], first :: rest, _, rfl, ?_, reads_of_settled hsettled (first :: rest)⟩
          rwa [List.append_nil]
      | false =>
          have hpending' := hpending.concat hadmits (by omega) hsettled first
          obtain ⟨read, unread, outcome, rfl, hstops, hreads⟩ :=
            ih (by rw [List.length_append, List.length_singleton]; omega) hpending'
          rw [List.append_assoc, List.singleton_append] at hstops
          rw [Seen.of_concat] at hreads
          exact ⟨first :: read, unread, outcome, rfl, hstops, hreads.cons hsettled⟩

/-- A gate over as many known inputs as it admits runs its loop over them. -/
theorem apply_eq_loop {g : Gate} {values : List Bool} (hadmits : g.admits values.length = true) :
    g.apply values = Id.run (g.loop (values.map pure)) := by
  rw [apply, run_eq_loop (by rwa [List.length_map])]

/-- The value of a gate does not depend on the order of its inputs, if it admits their number. -/
theorem apply_perm {g : Gate} {values values' : List Bool} (hperm : values'.Perm values)
    (hadmits : g.admits values.length = true) : g.apply values' = g.apply values := by
  have hadmits' : g.admits values'.length = true := by rwa [hperm.length_eq]
  rw [apply_eq_loop hadmits, apply_eq_loop hadmits', loop_perm g hperm]

/-- **Gates are correct and as lazy as can be.**  Over as many inputs as it admits, a gate has the
value of its truth function, and takes exactly the fewest first inputs that settle that value
whatever the others are: it takes these in their order and none after them, whatever inputs there
are and whatever taking one does.  The order of the inputs does not change the value. -/
theorem reads_shortest_prefix {g : Gate} {values : List Bool}
    (hadmits : g.admits values.length = true) :
    g.apply values = g.truth values ∧
    (∃ read unread, values = read ++ unread ∧
      g.Stops values.length read (g.apply values) ∧
      g.Reads {} values read.length (g.apply values) ∧
      g.applyCounted values = (g.apply values, read.length)) ∧
    ∀ values', values'.Perm values → g.apply values' = g.apply values := by
  refine ⟨apply_eq_truth g values, ?_, fun values' hperm => apply_perm hperm hadmits⟩
  obtain ⟨read, unread, outcome, hvalues, hstops, hreads⟩ :=
    exists_reads hadmits (Nat.zero_add _) (pending_nil g values.length)
  rw [List.nil_append] at hstops
  have hreads : g.Reads {} values read.length outcome := hreads
  rw [hreads.apply_eq]
  exact ⟨read, unread, hvalues, hstops, hreads, hreads.applyCounted_eq hstops.settles.le⟩

/-- Of four inputs the first three settle an exclusion: the first two are true, and the third one is
false. -/
theorem reads_shortest_prefix_exclusion :
    admits .xor [true, true, false, true].length = true ∧
    apply .xor [true, true, false, true] = true ∧
    Stops .xor 4 [true, true, false] true ∧
    Reads .xor {} [true, true, false, true] 3 true ∧
    applyCounted .xor [true, true, false, true] = (true, 3) ∧
    apply .xor [false, true, true, true] = true := by
  have hadmits : admits .xor [true, true, false, true].length = true := by decide
  obtain ⟨hvalue, ⟨read, unread, hparts, hstops, hreads, hcounted⟩, hperm⟩ :=
    reads_shortest_prefix hadmits
  have happly : apply .xor [true, true, false, true] = true := hvalue.trans (by decide)
  have hnumber : read.length = 3 := (congrArg Prod.snd hcounted).symm.trans (by decide)
  have hread : read = [true, true, false] := by
    have htake : (read ++ unread).take read.length = read := List.take_left
    rw [← htake, ← hparts, hnumber]
    rfl
  have hother := hperm [false, true, true, true] (by decide)
  rw [happly] at hstops hreads hcounted hother
  rw [hnumber] at hreads hcounted
  rw [hread] at hstops
  exact ⟨hadmits, happly, hstops, hreads, hcounted, hother⟩

end Gate

end Clearance
