import PathEquiv.Benchmark
import PathEquiv.Proofs.Path

set_option autoImplicit false

/-!
# Ground truth

The names on the way from the root to a directory are read from the path as it is written, and
steps up are passed over. A directory with steps up can so be taken for one below the root though
it lies elsewhere, or get the name and the result of another one. The main result says for which
directories this does not happen.
-/

namespace PathEquiv

open PathEquiv.Path

theorem benchmarkPath_below {root directory : String} {rest : List Part}
    (below : parts directory = parts root ++ rest) :
    benchmarkPath root directory = .ok (names rest) := by
  rw [benchmarkPath, below?_eq_some_iff.mpr below]

theorem benchmarkPath_outside {root directory : String}
    (outside : ¬ parts root <+: parts directory) :
    benchmarkPath root directory = .error (.outsideRoot directory root) := by
  unfold benchmarkPath
  split
  next rest found => exact absurd ⟨rest, (below?_eq_some_iff.mp found).symm⟩ outside
  next => rfl

theorem benchmarkName_below {root directory : String} {rest : List Part}
    (below : parts directory = parts root ++ rest) :
    benchmarkName root directory = .ok (String.intercalate "/" ((names rest).take 3)) := by
  rw [benchmarkName, benchmarkPath_below below]
  rfl

theorem benchmarkName_outside {root directory : String}
    (outside : ¬ parts root <+: parts directory) :
    benchmarkName root directory = .error (.outsideRoot directory root) := by
  rw [benchmarkName, benchmarkPath_outside outside]
  rfl

theorem expectedResult_below {root directory : String} {rest : List Part}
    (below : parts directory = parts root ++ rest) :
    expectedResult root directory =
      ((((names rest).take 3).drop 1).findSome? Expected.ofName?).elim
        (.error (.noExpectedResult directory)) .ok := by
  have stating : ((names rest).take 3).drop 1 = ((names rest).drop 1).take 2 := List.drop_take
  have continued (next : List String → Except BenchmarkError Expected) :
      (.ok (names rest) >>= next) = next (names rest) := rfl
  rw [expectedResult, benchmarkPath_below below, continued, stating]
  cases (((names rest).drop 1).take 2).findSome? Expected.ofName? <;> rfl

theorem expectedResult_outside {root directory : String}
    (outside : ¬ parts root <+: parts directory) :
    expectedResult root directory = .error (.outsideRoot directory root) := by
  rw [expectedResult, benchmarkPath_outside outside]
  rfl

/-- The same result, but for the directory that an error names. -/
inductive SameTruth : (first second : Except BenchmarkError Expected) → Prop
  | same (result : Except BenchmarkError Expected) : SameTruth result result
  | unstated (first second : String) :
      SameTruth (.error (.noExpectedResult first)) (.error (.noExpectedResult second))

structure SameBenchmark (root first second : String) : Prop where
  result : SameTruth (expectedResult root first) (expectedResult root second)
  name : benchmarkName root first = benchmarkName root second

/-- The place where a directory lies once its steps up are taken decides what is read: nothing
outside the root, and inside it what the path without the steps gives. -/
structure TruthConfined (root directory : String) : Prop where
  outside : ¬ parts root <+: parts (resolved directory) →
    expectedResult root directory = .error (.outsideRoot directory root) ∧
      benchmarkName root directory = .error (.outsideRoot directory root)
  inside : parts root <+: parts (resolved directory) →
    SameBenchmark root directory (resolved directory)

theorem sameBenchmark_below {root first second : String} {firstRest secondRest : List Part}
    (firstBelow : parts first = parts root ++ firstRest)
    (secondBelow : parts second = parts root ++ secondRest) :
    SameBenchmark root first second ↔ (names firstRest).take 3 = (names secondRest).take 3 := by
  constructor
  next =>
    intro agree
    have joined := agree.name
    rw [benchmarkName_below firstBelow, benchmarkName_below secondBelow] at joined
    exact intercalate_inj
      (fun text member => isName_of_mem_names firstBelow (List.mem_of_mem_take member))
      (fun text member => isName_of_mem_names secondBelow (List.mem_of_mem_take member))
      (Except.ok.inj joined)
  next =>
    intro same
    constructor
    next =>
      rw [expectedResult_below firstBelow, expectedResult_below secondBelow, same]
      cases (((names secondRest).take 3).drop 1).findSome? Expected.ofName? with
      | none => exact .unstated first second
      | some expected => exact .same _
    next => rw [benchmarkName_below firstBelow, benchmarkName_below secondBelow, same]

theorem not_sameBenchmark_of_outside {root first second : String}
    (outside : ¬ parts root <+: parts first) (inside : parts root <+: parts second) :
    ¬ SameBenchmark root first second := by
  intro agree
  obtain ⟨rest, below⟩ := inside
  have joined := agree.name
  rw [benchmarkName_outside outside, benchmarkName_below below.symm] at joined
  cases joined

/-- The written and the resolved path agree on lying below the root, and on the first three names
below it. -/
structure ReadAsResolved (root directory : String) : Prop where
  below_iff : parts root <+: parts directory ↔ parts root <+: resolve (parts directory)
  names_eq : ∀ written rest, parts directory = parts root ++ written →
    resolve (parts directory) = parts root ++ rest → (names written).take 3 = (names rest).take 3

theorem TruthConfined.readAsResolved {root directory : String}
    (confined : TruthConfined root directory) : ReadAsResolved root directory := by
  by_cases lies : parts root <+: parts (resolved directory)
  next =>
    have agree := confined.inside lies
    have written : parts root <+: parts directory := by
      by_contra outside
      exact not_sameBenchmark_of_outside outside lies agree
    rw [parts_resolved] at lies
    refine ⟨iff_of_true written lies, fun written rest below left => ?_⟩
    exact (sameBenchmark_below below ((parts_resolved directory).trans left)).mp agree
  next =>
    -- Any directory that is written below the root has a name.
    obtain ⟨-, named⟩ := confined.outside lies
    have outside : ¬ parts root <+: parts directory := by
      rintro ⟨rest, below⟩
      rw [benchmarkName_below below.symm] at named
      cases named
    rw [parts_resolved] at lies
    exact ⟨iff_of_false outside lies, fun written _ below _ =>
      absurd ⟨written, below.symm⟩ outside⟩

theorem ReadAsResolved.confined {root directory : String} (alike : ReadAsResolved root directory) :
    TruthConfined root directory := by
  constructor
  next =>
    intro outside
    rw [parts_resolved, ← alike.below_iff] at outside
    exact ⟨expectedResult_outside outside, benchmarkName_outside outside⟩
  next =>
    intro inside
    rw [parts_resolved] at inside
    obtain ⟨written, below⟩ := alike.below_iff.mpr inside
    obtain ⟨rest, left⟩ := inside
    have names := alike.names_eq written rest below.symm left.symm
    exact (sameBenchmark_below below.symm ((parts_resolved directory).trans left.symm)).mpr names

theorem readAsResolved_of_no_up {root directory : String} (down : .up ∉ parts directory) :
    ReadAsResolved root directory := by
  have unchanged := resolve_of_no_up down
  refine ⟨by rw [unchanged], fun written rest below left => ?_⟩
  rw [unchanged, below] at left
  rw [List.append_cancel_left left]

/-- Ground truth is confined to the root exactly where the written path is read as the resolved one
would be, and so wherever no step up is written. -/
theorem ground_truth_confined_iff (root directory : String) :
    (TruthConfined root directory ↔ ReadAsResolved root directory) ∧
      (.up ∉ parts directory → TruthConfined root directory) :=
  ⟨⟨TruthConfined.readAsResolved, ReadAsResolved.confined⟩,
    fun down => (readAsResolved_of_no_up down).confined⟩

theorem ground_truth_confined_written_down :
    let root := "/bench"
    let directory := "/bench//lib/./Eq/x"
    .up ∉ parts directory ∧ resolved directory = "/bench/lib/Eq/x" ∧
      TruthConfined root directory ∧ SameBenchmark root directory (resolved directory) ∧
      expectedResult root directory = .ok .eq ∧
      benchmarkName root directory = .ok "lib/Eq/x" := by
  intro root directory
  have down : .up ∉ parts directory := by decide +kernel
  have confined := (ground_truth_confined_iff root directory).2 down
  have inside : parts root <+: parts (resolved directory) := by decide +kernel
  exact ⟨down, by decide +kernel, confined, confined.inside inside, by decide +kernel,
    by decide +kernel⟩

theorem ground_truth_read_outside_root :
    let root := "/bench"
    let directory := "/bench/../other/Eq/x"
    .up ∉ parts root ∧ resolved directory = "/other/Eq/x" ∧
      ¬ parts root <+: parts (resolved directory) ∧
      expectedResult root directory = .ok .eq ∧
      benchmarkName root directory = .ok "other/Eq/x" ∧
      ¬ TruthConfined root directory := by
  intro root directory
  have outside : ¬ parts root <+: parts (resolved directory) := by decide +kernel
  have read : expectedResult root directory = .ok .eq := by decide +kernel
  refine ⟨by decide +kernel, by decide +kernel, outside, read, by decide +kernel, ?_⟩
  intro confined
  have refused := (confined.outside outside).1
  rw [read] at refused
  cases refused

end PathEquiv
