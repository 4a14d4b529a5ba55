import PathEquiv.Proofs.Partition.Summary
import PathEquiv.Proofs.Run.Integers

set_option autoImplicit false

namespace PathEquiv.Run

universe u

variable {σ : Type} {sem : Semantics.{u}}

namespace Recorded

variable {host : Host σ} {setup : Setup} {event : Event} {record : Record}
  {events : List Event}

theorem agree_or_differ (recorded : Recorded host setup event record)
    (compared : record.kind = .comparison) (world : sem.World) :
    sem.Agree record.old record.new world ∨ sem.Differ record.old record.new world := by
  cases recorded with
  | depthLimit => cases compared
  | @comparison site =>
    rcases Classical.em (sem.value world site.old = sem.value world site.new) with same | other
    · exact .inl ⟨site.old, rfl, site.new, rfl, same⟩
    · exact .inr ⟨site.old, rfl, site.new, rfl, other⟩

theorem agree (recorded : Recorded host setup event record)
    (sound : sem.UnsatSound host setup.synthesizer events) (member : event ∈ events)
    (compared : record.kind = .comparison) (neq : (evidenceOf record).neq = some .unsat)
    {world : sem.World} (taken : sem.Takes record.condition world) :
    sem.Agree record.old record.new world := by
  rcases recorded.agree_or_differ compared world with agree | differ
  · exact agree
  · exact absurd ⟨taken, differ⟩ (recorded.unsat sound member .neq neq world)

theorem compared_of_eq (recorded : Recorded host setup event record)
    (equal : record.classification = .eq) :
    record.kind = .comparison ∧ (evidenceOf record).neq = some .unsat := by
  have classified := recorded.classified
  rw [equal] at classified
  obtain ⟨within, neq⟩ := Evidence.neq_of_eq classified
  exact ⟨recorded.comparison_of_within within, neq⟩

theorem agree_of_eq (recorded : Recorded host setup event record)
    (sound : sem.UnsatSound host setup.synthesizer events) (member : event ∈ events)
    (equal : record.classification = .eq) {world : sem.World}
    (taken : sem.Takes record.condition world) : sem.Agree record.old record.new world := by
  obtain ⟨compared, neq⟩ := recorded.compared_of_eq equal
  exact recorded.agree sound member compared neq taken

theorem not_taken_of_unreachable (recorded : Recorded host setup event record)
    (sound : sem.UnsatSound host setup.synthesizer events) (member : event ∈ events)
    (unreachable : record.classification = .unreachable) (world : sem.World) :
    ¬sem.Takes record.condition world := by
  have classified := recorded.classified
  rw [unreachable] at classified
  exact recorded.unsat sound member .reachability (Evidence.pc_of_unreachable classified) world

end Recorded

theorem recorded_of_mem {host : Host σ} {setup : Setup} {outside : σ} {events : List Event}
    {record : Record} (member : record ∈ (after host setup { outside } events).records) :
    ∃ event ∈ events, Recorded host setup event record := by
  rcases mem_records_after member with initial | recorded
  · cases initial
  · exact recorded

theorem positive_verdict_sound (sem : Semantics.{u}) (host : Host σ) (config : Config)
    (outside : σ) (events : List Event)
    (sound : sem.UnsatSound host config.synthesizer events) :
    let run := after host config.setup { outside } events
    (∀ record ∈ run.records,
      (record.classification = .eq ∨ record.equivalent = true →
        ∀ world, sem.Takes record.condition world → sem.Agree record.old record.new world) ∧
      (record.classification = .unreachable → ∀ world, ¬sem.Takes record.condition world)) ∧
    ((run.summary config.setup).verdict = .eq → ∀ record ∈ run.records,
      (record.kind = .comparison →
        ∀ world, sem.Takes record.condition world → sem.Agree record.old record.new world) ∧
      (record.kind = .depthLimit → ∀ world, ¬sem.Takes record.condition world)) := by
  intro run
  constructor
  next =>
    intro record kept
    obtain ⟨event, member, recorded⟩ := recorded_of_mem kept
    refine ⟨?_, fun unreachable => recorded.not_taken_of_unreachable sound member unreachable⟩
    rintro (equal | equivalent) world taken
    · exact recorded.agree_of_eq sound member equal taken
    · have compared := recorded.comparison_of_equivalent equivalent
      have neq := (recorded.equivalent_iff compared).mp equivalent
      exact recorded.agree sound member compared neq taken
  next =>
    intro verdict record kept
    obtain ⟨event, member, recorded⟩ := recorded_of_mem kept
    have occurs : record.classification ∈ run.records.map Record.classification :=
      List.mem_map_of_mem kept
    rcases Counts.eq_or_unreachable_of_verdict verdict occurs with equal | unreachable
    · refine ⟨fun _ world taken => recorded.agree_of_eq sound member equal taken, ?_⟩
      intro limited
      rw [(recorded.compared_of_eq equal).1] at limited
      cases limited
    · have never := recorded.not_taken_of_unreachable sound member unreachable
      exact ⟨fun _ world taken => absurd taken (never world), fun _ => never⟩

def sumEvents : List Event :=
  [.comparison ⟨some (.lt (.intVar "x") (.int 3)), .add (.intVar "x") (.int 1),
      .add (.int 1) (.intVar "x"), {}⟩,
    .choice 0 1 (some (.bool true)),
    .depthLimit (some (.bool false))]

-- Of the two paths only the one without variables is never taken.
def sumStatus (query : Query) : SolverStatus :=
  match query.kind with
  | .neq => .unsat
  | .eq => .sat
  | .reachability => if query.declarations = [] then .unsat else .sat

theorem unsatSound_sumStatus :
    integers.UnsatSound (scripted sumStatus) (Config.synthesizer {}) sumEvents := by
  intro event member query satisfies poses told world asserted
  have said := status_of_told told
  simp only [sumEvents, List.mem_cons, List.not_mem_nil, or_false] at member
  rcases member with rfl | rfl | rfl
  · cases poses with
    | comparison kind built =>
      cases kind with
      | reachability =>
        obtain ⟨_, _, _, declarations, inferred, rfl⟩ := Synthesizer.synthesize_eq_ok.mp built
        have declared := (mem_inferFromExprs inferred ⟨"x", [], .integer⟩).mpr
          ⟨by decide, by decide +kernel⟩
        have given : declarations ≠ [] := List.ne_nil_of_mem declared
        simp [sumStatus, Synthesizer.get_assemble, given] at said
      | neq =>
        obtain ⟨_, _, ⟨⟩, _, ⟨⟩, other⟩ := asserted
        apply other
        simp [integers, Expr.add, Expr.evaluate, Expr.evaluateAll, Opcode.apply, Int.add_comm]
      | eq =>
        have kind := Synthesizer.kind_synthesize built .eq
        simp [sumStatus, kind] at said
  · cases poses
  · cases poses
    exact asserted _ rfl rfl

theorem positive_verdict_sound_sums :
    let run := after (scripted sumStatus) (Config.setup {}) { outside := () } sumEvents
    (run.summary (Config.setup {})).verdict = .eq ∧ ∀ record ∈ run.records,
      (record.kind = .comparison → ∀ world, integers.Takes record.condition world →
        integers.Agree record.old record.new world) ∧
      (record.kind = .depthLimit → ∀ world, ¬integers.Takes record.condition world) := by
  intro run
  have verdict : (run.summary (Config.setup {})).verdict = .eq := by decide +kernel
  have sound := positive_verdict_sound integers (scripted sumStatus) {} () sumEvents
    unsatSound_sumStatus
  exact ⟨verdict, sound.2 verdict⟩

namespace Recorded

variable {host : Host σ} {setup : Setup} {event : Event} {record : Record}
  {events : List Event}

theorem compared_of_neq (recorded : Recorded host setup event record)
    (differs : record.classification = .neq) :
    record.kind = .comparison ∧ record.flags.isError = false ∧
      (evidenceOf record).pc ≠ some .unsat ∧ (evidenceOf record).pc ≠ some .unknown ∧
      (evidenceOf record).neq ≠ some .unknown ∧
      (((evidenceOf record).neq = some .sat ∧ record.calls.any = false) ∨
        (evidenceOf record).eq = some .unsat) := by
  have classified := recorded.classified
  rw [differs] at classified
  obtain ⟨fine, within, answers⟩ := Evidence.cases_of_neq classified
  exact ⟨recorded.comparison_of_within within, fine, answers⟩

theorem decided (recorded : Recorded host setup event record)
    (compared : record.kind = .comparison) (fine : record.flags.isError = false)
    (kind : QueryKind) (wanted : kind = .reachability → setup.solveReachability = true)
    (known : (record.answers.get? kind).map Answer.status ≠ some .unknown) :
    (record.answers.get? kind).map Answer.status = some .sat ∨
      (record.answers.get? kind).map Answer.status = some .unsat := by
  obtain ⟨answer, given⟩ := Option.isSome_iff_exists.mp (recorded.answered compared fine wanted)
  have clean := recorded.clean fine given
  rw [given, Option.map_some] at known ⊢
  cases status : answer.status <;> simp_all

theorem not_taken_of_both_unsat (recorded : Recorded host setup event record)
    (sound : sem.UnsatSound host setup.synthesizer events) (member : event ∈ events)
    (compared : record.kind = .comparison) (neq : (evidenceOf record).neq = some .unsat)
    (eq : (evidenceOf record).eq = some .unsat) (world : sem.World) :
    ¬sem.Takes record.condition world := by
  intro taken
  have agree := recorded.agree sound member compared neq taken
  exact recorded.unsat sound member .eq eq world ⟨taken, agree⟩

theorem taken_of_neq (recorded : Recorded host setup event record)
    (satSound : sem.SatSound host setup.synthesizer events) (member : event ∈ events)
    (asked : setup.solveReachability = true) (differs : record.classification = .neq) :
    ∃ world, sem.Takes record.condition world := by
  obtain ⟨compared, fine, reachable, known, -⟩ := recorded.compared_of_neq differs
  rcases recorded.decided compared fine .reachability (fun _ => asked) known with sat | unsat
  · exact recorded.sat satSound member .reachability sat
  · exact absurd unsat reachable

/-- A difference rests on a world, or the path of the partition is never taken and nobody asked. -/
theorem neq_cases (recorded : Recorded host setup event record)
    (satSound : sem.SatSound host setup.synthesizer events)
    (unsatSound : sem.UnsatSound host setup.synthesizer events) (member : event ∈ events)
    (differs : record.classification = .neq) :
    (record.equivalent = false ∧ ∃ world, sem.Takes record.condition world ∧
      sem.Differ record.old record.new world) ∨
    (record.equivalent = true ∧ setup.solveReachability = false ∧
      ∀ world, ¬sem.Takes record.condition world) := by
  obtain ⟨compared, fine, -, -, known, rule⟩ := recorded.compared_of_neq differs
  have equivalent := recorded.equivalent_iff compared
  rcases recorded.decided compared fine .neq nofun known with sat | unsat
  · refine .inl ⟨?_, recorded.sat satSound member .neq sat⟩
    have other : (evidenceOf record).neq ≠ some .unsat := fun unsat =>
      absurd (sat.symm.trans unsat) (by decide)
    simpa using mt equivalent.mp other
  · have eq : (evidenceOf record).eq = some .unsat := by
      rcases rule with ⟨sat, -⟩ | eq
      · exact absurd (sat.symm.trans unsat) (by decide)
      · exact eq
    have never := recorded.not_taken_of_both_unsat unsatSound member compared unsat eq
    refine .inr ⟨equivalent.mpr unsat, ?_, never⟩
    -- Had it been asked, the query for the path would have a world to show.
    cases asked : setup.solveReachability with
    | false => rfl
    | true =>
      obtain ⟨world, taken⟩ := recorded.taken_of_neq satSound member asked differs
      exact absurd taken (never world)

end Recorded

theorem neq_backed_iff_not_equivalent (sem : Semantics.{u}) (host : Host σ) (config : Config)
    (outside : σ) (events : List Event)
    (satSound : sem.SatSound host config.synthesizer events)
    (unsatSound : sem.UnsatSound host config.synthesizer events) :
    ∀ record ∈ (after host config.setup { outside } events).records,
      record.classification = .neq →
      ((∃ world, sem.Takes record.condition world ∧ sem.Differ record.old record.new world) ↔
        record.equivalent = false) ∧
      (record.equivalent = true ↔ ∀ world, ¬sem.Takes record.condition world) ∧
      (config.solveReachability = true →
        ∃ world, sem.Takes record.condition world ∧ sem.Differ record.old record.new world) := by
  intro record kept differs
  obtain ⟨event, member, recorded⟩ := recorded_of_mem kept
  rcases recorded.neq_cases satSound unsatSound member differs with
    ⟨apart, backed⟩ | ⟨equivalent, skipped, never⟩
  · refine ⟨⟨fun _ => apart, fun _ => backed⟩, ⟨?_, ?_⟩, fun _ => backed⟩
    · intro equivalent
      rw [apart] at equivalent
      cases equivalent
    · intro never
      obtain ⟨world, taken, -⟩ := backed
      exact absurd taken (never world)
  · refine ⟨⟨?_, ?_⟩, ⟨fun _ => never, fun _ => equivalent⟩, ?_⟩
    · rintro ⟨world, taken, -⟩
      exact absurd taken (never world)
    · intro apart
      rw [equivalent] at apart
      cases apart
    · intro asked
      have contradiction := asked.symm.trans skipped
      cases contradiction

-- The new result is one more than the old one, whatever the call gives.
def incrementSite : Site :=
  { condition := some (.lt (.intVar "x") (.int 3))
    old := .call "f" .integer [.intVar "x"]
    new := .add (.call "f" .integer [.intVar "x"]) (.int 1) }

def differing : QueryKind → SolverStatus
  | .reachability | .neq => .sat
  | .eq => .unsat

theorem unsatSound_increment :
    integers.UnsatSound (scripted fun query => differing query.kind) (Config.synthesizer {})
      [.comparison incrementSite] := by
  apply unsatSound_comparison differing
  intro kind said world asserted
  cases kind with
  | reachability => cases said
  | neq => cases said
  | eq =>
    obtain ⟨_, _, ⟨⟩, _, ⟨⟩, same⟩ := asserted
    have same : world.1 "f" [world.2 "x"] = 0 + world.1 "f" [world.2 "x"] + 1 := same
    omega

theorem satSound_increment :
    integers.SatSound (scripted fun query => differing query.kind) (Config.synthesizer {})
      [.comparison incrementSite] := by
  apply satSound_comparison differing
  intro kind said
  refine ⟨(fun _ _ => 0, fun _ => 0), ?_⟩
  have taken : integers.Takes incrementSite.condition (fun _ _ => 0, fun _ => 0) := by
    rintro _ ⟨⟩
    show Expr.evaluate (fun _ _ => 0) (fun _ => 0) _ ≠ 0
    decide
  cases kind with
  | reachability => exact taken
  | neq =>
    refine ⟨taken, incrementSite.old, rfl, incrementSite.new, rfl, ?_⟩
    show Expr.evaluate (fun _ _ => 0) (fun _ => 0) _ ≠ Expr.evaluate (fun _ _ => 0) (fun _ => 0) _
    decide
  | eq => cases said

theorem neq_backed_increment :
    ∃ record ∈ (after (scripted fun query => differing query.kind) (Config.setup {})
        { outside := () } [.comparison incrementSite]).records,
      record.classification = .neq ∧ ∃ world, integers.Takes record.condition world ∧
        integers.Differ record.old record.new world := by
  have found : (after (scripted fun query => differing query.kind) (Config.setup {})
      { outside := () } [.comparison incrementSite]).records.any
        (fun record => record.classification == .neq) = true := by
    decide +kernel
  obtain ⟨record, kept, differs⟩ := List.any_eq_true.mp found
  have reported : record.classification = .neq := eq_of_beq differs
  have backed := neq_backed_iff_not_equivalent integers _ {} () _ satSound_increment
    unsatSound_increment record kept reported
  exact ⟨record, kept, reported, backed.2.2 rfl⟩

/-- Without the query for the path, a difference is reported on a path that is never taken and on
which the results are known to be equal. -/
theorem neq_on_path_never_taken :
    let config : Config := { solveReachability := false }
    let events := [Event.comparison ⟨some (.bool false), .int 1, .int 1, {}⟩]
    let host := scripted fun _ => .unsat
    integers.SatSound host config.synthesizer events ∧
      integers.UnsatSound host config.synthesizer events ∧
      ∃ record ∈ (after host config.setup { outside := () } events).records,
        record.classification = .neq ∧ record.equivalent = true ∧
          ∀ world, ¬integers.Takes record.condition world := by
  intro config events host
  have never (world : integers.World) : ¬integers.Takes (some (.bool false)) world := by
    intro taken
    exact taken _ rfl rfl
  refine ⟨?_, ?_, ?_⟩
  · exact satSound_comparison (fun _ => .unsat) nofun
  · apply unsatSound_comparison fun _ => .unsat
    intro kind _ world asserted
    cases kind with
    | reachability => exact never world asserted
    | neq => exact never world asserted.1
    | eq => exact never world asserted.1
  · have found : (after host config.setup { outside := () } events).records.any
        (fun record => record.classification == .neq && record.equivalent) = true := by
      decide +kernel
    obtain ⟨record, kept, differs⟩ := List.any_eq_true.mp found
    rw [Bool.and_eq_true] at differs
    obtain ⟨event, member, recorded⟩ := recorded_of_mem kept
    rw [List.mem_singleton] at member
    subst member
    cases recorded
    exact ⟨_, kept, eq_of_beq differs.1, differs.2, never⟩

namespace Recorded

variable {host : Host σ} {setup : Setup} {event : Event} {record : Record}
  {events : List Event}

theorem differ_of_taken (recorded : Recorded host setup event record)
    (satSound : sem.SatSound host setup.synthesizer events)
    (unsatSound : sem.UnsatSound host setup.synthesizer events) (free : sem.CallFree)
    (member : event ∈ events) (differs : record.classification = .neq)
    {interpretation : sem.Interpretation} {assignment : sem.Assignment}
    (taken : sem.Takes record.condition (interpretation, assignment)) :
    ∃ assignment, sem.Takes record.condition (interpretation, assignment) ∧
      sem.Differ record.old record.new (interpretation, assignment) := by
  obtain ⟨compared, -, -, -, -, rule⟩ := recorded.compared_of_neq differs
  rcases rule with ⟨sat, callFree⟩ | unsat
  · -- The world that the solver found is one of every interpretation.
    obtain ⟨⟨other, found⟩, reached, apart⟩ := recorded.sat satSound member .neq sat
    rw [recorded.calls_any compared] at callFree
    simp only [Bool.or_eq_false_iff] at callFree
    obtain ⟨⟨conditionFree, oldFree⟩, newFree⟩ := callFree
    exact ⟨found, free.takes conditionFree reached interpretation,
      free.differ oldFree newFree apart interpretation⟩
  · -- No world agrees on the path, so the one at hand differs.
    rcases recorded.agree_or_differ compared (interpretation, assignment) with agree | differ
    · exact absurd ⟨taken, agree⟩ (recorded.unsat unsatSound member .eq unsat _)
    · exact ⟨assignment, taken, differ⟩

end Recorded

theorem neq_exact_where_taken (sem : Semantics.{u}) (host : Host σ) (config : Config)
    (outside : σ) (events : List Event)
    (satSound : sem.SatSound host config.synthesizer events)
    (unsatSound : sem.UnsatSound host config.synthesizer events) (free : sem.CallFree)
    (asked : config.solveReachability = true) :
    ∀ record ∈ (after host config.setup { outside } events).records,
      record.classification = .neq →
      (∃ interpretation assignment, sem.Takes record.condition (interpretation, assignment)) ∧
      (∀ interpretation,
        (∃ assignment, sem.Takes record.condition (interpretation, assignment) ∧
          sem.Differ record.old record.new (interpretation, assignment)) ↔
        ∃ assignment, sem.Takes record.condition (interpretation, assignment)) ∧
      (record.condition.any Expr.hasCall = false → ∀ interpretation,
        ∃ assignment, sem.Takes record.condition (interpretation, assignment) ∧
          sem.Differ record.old record.new (interpretation, assignment)) := by
  intro record kept differs
  obtain ⟨event, member, recorded⟩ := recorded_of_mem kept
  obtain ⟨⟨first, found⟩, taken⟩ := recorded.taken_of_neq satSound member asked differs
  have differ {interpretation : sem.Interpretation} {assignment : sem.Assignment}
      (taken : sem.Takes record.condition (interpretation, assignment)) :=
    recorded.differ_of_taken satSound unsatSound free member differs taken
  refine ⟨⟨first, found, taken⟩, fun interpretation => ⟨?_, ?_⟩, ?_⟩
  · rintro ⟨assignment, taken, -⟩
    exact ⟨assignment, taken⟩
  · rintro ⟨assignment, taken⟩
    exact differ taken
  · -- The world that takes the path takes it under any other interpretation.
    intro callFree interpretation
    exact differ (free.takes callFree taken interpretation)

theorem neq_exact_increment :
    ∃ record ∈ (after (scripted fun query => differing query.kind) (Config.setup {})
        { outside := () } [.comparison incrementSite]).records,
      record.classification = .neq ∧ ∀ interpretation,
        ∃ assignment, integers.Takes record.condition (interpretation, assignment) ∧
          integers.Differ record.old record.new (interpretation, assignment) := by
  have found : (after (scripted fun query => differing query.kind) (Config.setup {})
      { outside := () } [.comparison incrementSite]).records.any
        (fun record => record.classification == .neq &&
          !record.condition.any Expr.hasCall) = true := by
    decide +kernel
  obtain ⟨record, kept, differs⟩ := List.any_eq_true.mp found
  rw [Bool.and_eq_true, Bool.not_eq_true'] at differs
  have reported : record.classification = .neq := eq_of_beq differs.1
  have sharp := neq_exact_where_taken integers _ {} () _ satSound_increment
    unsatSound_increment integers_callFree rfl record kept reported
  exact ⟨record, kept, reported, sharp.2.2 differs.2⟩

theorem neq_not_under_every_interpretation :
    let config : Config := {}
    let events := [Event.comparison
      ⟨some (.eq (.call "c" .integer []) (.int 1)), .int 1, .int 2, {}⟩]
    let host := scripted fun query => differing query.kind
    config.solveReachability = true ∧ integers.CallFree ∧
      integers.SatSound host config.synthesizer events ∧
      integers.UnsatSound host config.synthesizer events ∧
      ∃ record ∈ (after host config.setup { outside := () } events).records,
        record.classification = .neq ∧ ∃ interpretation, ∀ assignment,
          ¬integers.Takes record.condition (interpretation, assignment) := by
  intro config events host
  refine ⟨rfl, integers_callFree, ?_, ?_, ?_⟩
  · apply satSound_comparison differing
    intro kind said
    refine ⟨(fun _ _ => 1, fun _ => 0), ?_⟩
    have taken : integers.Takes (some (.eq (.call "c" .integer []) (.int 1)))
        (fun _ _ => 1, fun _ => 0) := by
      rintro _ ⟨⟩
      show Expr.evaluate (fun _ _ => 1) (fun _ => 0) _ ≠ 0
      decide
    cases kind with
    | reachability => exact taken
    | neq =>
      refine ⟨taken, .int 1, rfl, .int 2, rfl, ?_⟩
      show Expr.evaluate (fun _ _ => 1) (fun _ => 0) _ ≠ Expr.evaluate (fun _ _ => 1) (fun _ => 0) _
      decide
    | eq => cases said
  · apply unsatSound_comparison differing
    intro kind said world asserted
    cases kind with
    | reachability => cases said
    | neq => cases said
    | eq =>
      obtain ⟨_, _, ⟨⟩, _, ⟨⟩, same⟩ := asserted
      have same : (1 : Int) = 2 := same
      cases same
  · have found : (after host config.setup { outside := () } events).records.any
        (fun record => record.classification == .neq) = true := by
      decide +kernel
    obtain ⟨record, kept, differs⟩ := List.any_eq_true.mp found
    obtain ⟨event, member, recorded⟩ := recorded_of_mem kept
    rw [List.mem_singleton] at member
    subst member
    cases recorded
    refine ⟨_, kept, eq_of_beq differs, fun _ _ => 0, fun assignment taken => ?_⟩
    exact taken _ rfl rfl

end PathEquiv.Run
