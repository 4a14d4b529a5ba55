import PathEquiv.Run.Replay

set_option autoImplicit false

namespace PathEquiv

def Effect.path : Effect → String
  | .wrote path _ | .failedToWrite path | .asked _ path => path

def Effect.writtenPath? : Effect → Option String
  | .wrote path _ => some path
  | .failedToWrite _ | .asked _ _ => none

def Effect.isFailure : Effect → Bool
  | .failedToWrite _ => true
  | .wrote _ _ | .asked _ _ => false

def writtenPaths (effects : List Effect) : List String :=
  effects.filterMap Effect.writtenPath?

@[simp] theorem writtenPaths_append (effects more : List Effect) :
    writtenPaths (effects ++ more) = writtenPaths effects ++ writtenPaths more :=
  List.filterMap_append

@[simp] theorem writtenPaths_nil : writtenPaths [] = [] := rfl

@[simp] theorem writtenPaths_wrote (path contents : String) (effects : List Effect) :
    writtenPaths (.wrote path contents :: effects) = path :: writtenPaths effects := rfl

@[simp] theorem writtenPaths_failed (path : String) (effects : List Effect) :
    writtenPaths (.failedToWrite path :: effects) = writtenPaths effects := rfl

@[simp] theorem writtenPaths_asked (kind : QueryKind) (path : String) (effects : List Effect) :
    writtenPaths (.asked kind path :: effects) = writtenPaths effects := rfl

namespace Run

variable {σ α β : Type}

theorem bind_run (action : RunM σ α) (next : α → RunM σ β) (run : Run σ) :
    (action >>= next) run = match action run with
      | (.ok value, after) => next value after
      | (.error e, after) => (.error e, after) := by
  simp only [bind, ExceptT.bind, ExceptT.mk, StateT.bind]
  cases action run with
  | mk result after => cases result <;> rfl

theorem bind_pure_state (action : RunM σ α) (f : α → β) (run : Run σ) :
    ((action >>= fun value => pure (f value)) run).2 = (action run).2 := by
  rw [bind_run]
  cases action run with
  | mk result after => cases result <;> rfl

theorem get_run (run : Run σ) : (get : RunM σ (Run σ)) run = (.ok run, run) :=
  rfl

theorem set_run (run next : Run σ) : (set next : RunM σ PUnit) run = (.ok ⟨⟩, next) :=
  rfl

theorem throw_run (e : EngineError) (run : Run σ) :
    (throw e : RunM σ α) run = (.error e, run) :=
  rfl

theorem lift_run (value : Except EngineError α) (run : Run σ) :
    (liftM value : RunM σ α) run = (value, run) := by
  cases value <;> rfl

theorem allocate_run (run : Run σ) :
    allocate run =
      (.ok run.counter.allocate.1, { run with counter := run.counter.allocate.2 }) :=
  rfl

/-- The effects are what a host did on the way from one state to another. -/
inductive Reaches (host : Host σ) : σ → List Effect → σ → Prop where
  | done (s : σ) : Reaches host s [] s
  | wrote {path contents : String} {s next last : σ} {effects : List Effect}
      (written : host.write path contents s = (.ok (), next))
      (rest : Reaches host next effects last) :
      Reaches host s (.wrote path contents :: effects) last
  | failed {path contents cause : String} {s next last : σ} {effects : List Effect}
      (refused : host.write path contents s = (.error cause, next))
      (rest : Reaches host next effects last) :
      Reaches host s (.failedToWrite path :: effects) last
  | asked {query : Query} {path : String} {s last : σ} {effects : List Effect}
      (rest : Reaches host (host.solve query path s).2 effects last) :
      Reaches host s (.asked query.kind path :: effects) last

theorem Reaches.append {host : Host σ} {s middle last : σ} {effects more : List Effect}
    (first : Reaches host s effects middle) (second : Reaches host middle more last) :
    Reaches host s (effects ++ more) last := by
  induction first with
  | done => exact second
  | wrote written _ ih => exact .wrote written (ih second)
  | failed refused _ ih => exact .failed refused (ih second)
  | asked _ ih => exact .asked (ih second)

structure Grows (host : Host σ) (run later : Run σ) (added : List Effect) (kept : List Record) :
    Prop where
  counter : later.counter = run.counter
  choices : later.choices = run.choices
  records : later.records = run.records ++ kept
  effects : later.effects = run.effects ++ added
  outside : Reaches host run.outside added later.outside

theorem Grows.refl (host : Host σ) (run : Run σ) : Grows host run run [] [] :=
  ⟨rfl, rfl, by simp, by simp, .done _⟩

theorem Grows.trans {host : Host σ} {first second third : Run σ} {added more : List Effect}
    {kept : List Record} (before : Grows host first second added [])
    (after : Grows host second third more kept) : Grows host first third (added ++ more) kept where
  counter := after.counter.trans before.counter
  choices := after.choices.trans before.choices
  records := by rw [after.records, before.records, List.append_nil]
  effects := by rw [after.effects, before.effects, List.append_assoc]
  outside := before.outside.append after.outside

/-- Effects on files that are owned. What was written is among the given files, in their order and
each of them at most once. -/
structure Footprint (owned : String → Prop) (files : List String) (effects : List Effect) :
    Prop where
  written : (writtenPaths effects).Sublist files
  owned : ∀ effect ∈ effects, owned effect.path

namespace Footprint

variable {owned : String → Prop} {files others : List String} {effects more : List Effect}

theorem nil : Footprint owned files [] :=
  ⟨List.nil_sublist files, by simp⟩

theorem append (first : Footprint owned files effects) (second : Footprint owned others more) :
    Footprint owned (files ++ others) (effects ++ more) where
  written := by
    rw [writtenPaths_append]
    exact first.written.append second.written
  owned := by
    intro effect member
    rcases List.mem_append.mp member with earlier | later
    · exact first.owned effect earlier
    · exact second.owned effect later

theorem mono (footprint : Footprint owned files effects) (within : files.Sublist others) :
    Footprint owned others effects :=
  ⟨footprint.written.trans within, footprint.owned⟩

end Footprint

/-- How an action ends that does nothing but write, ask and keep records: it gives a value, or a
write has failed and no record was kept. -/
inductive Ends (host : Host σ) (owned : String → Prop) (files : List String)
    (keeps : α → List Record) (log : α → List Effect → Prop) (run : Run σ) :
    Except EngineError α × Run σ → Prop where
  | gives {value : α} {later : Run σ} {added : List Effect}
      (grows : Grows host run later added (keeps value))
      (footprint : Footprint owned files added) (logged : log value added) :
      Ends host owned files keeps log run (.ok value, later)
  | fails {path cause : String} {later : Run σ} {added : List Effect}
      (grows : Grows host run later added []) (footprint : Footprint owned files added)
      (failed : .failedToWrite path ∈ added) :
      Ends host owned files keeps log run (.error (.artifact path cause), later)

def nothing (_ : α) : List Record := []

def Performs (host : Host σ) (owned : String → Prop) (files : List String) (action : RunM σ α)
    (keeps : α → List Record) (log : α → List Effect → Prop) : Prop :=
  ∀ run, Ends host owned files keeps log run (action run)

section Performs

variable {host : Host σ} {owned : String → Prop} {files others : List String}
  {action : RunM σ α} {next : α → RunM σ β} {keeps : β → List Record}
  {log : α → List Effect → Prop} {final : β → List Effect → Prop}

theorem Performs.pure {value : α} (logged : log value []) :
    Performs host owned files (pure value) nothing log :=
  fun run => .gives (.refl host run) .nil logged

theorem Performs.mono {keeps : α → List Record} {weaker : α → List Effect → Prop}
    (performs : Performs host owned files action keeps log) (within : files.Sublist others)
    (implies : ∀ value added, log value added → weaker value added) :
    Performs host owned others action keeps weaker := by
  intro run
  have ended := performs run
  generalize action run = outcome at ended ⊢
  cases ended with
  | gives grows footprint logged =>
    exact .gives grows (footprint.mono within) (implies _ _ logged)
  | fails grows footprint failed => exact .fails grows (footprint.mono within) failed

theorem Performs.bind (first : Performs host owned files action nothing log)
    (rest : ∀ value added, log value added →
      Performs host owned others (next value) keeps fun result more =>
        final result (added ++ more)) :
    Performs host owned (files ++ others) (action >>= next) keeps final := by
  intro run
  have ended := first run
  rw [bind_run]
  generalize action run = outcome at ended ⊢
  cases ended with
  | @gives value middle added grows footprint logged =>
    have more := rest value added logged middle
    simp only
    generalize next value middle = outcome at more ⊢
    cases more with
    | gives later others logged => exact .gives (grows.trans later) (footprint.append others) logged
    | fails later others failed =>
      exact .fails (grows.trans later) (footprint.append others) (by simp [failed])
  | fails grows footprint failed =>
    -- The rest is not run, so none of its files is written.
    exact .fails grows (footprint.mono (List.sublist_append_left files others)) failed

theorem Performs.optional {condition : Prop} [Decidable condition] {action : RunM σ Unit}
    {next : Unit → RunM σ β} (effects : List Effect)
    (acts : condition → Performs host owned files action nothing fun _ added => added = effects)
    (rest : Performs host owned others (next ()) keeps fun result more =>
      final result ((if condition then effects else []) ++ more)) :
    Performs host owned (files ++ others) (if condition then action >>= next else next ()) keeps
      final := by
  split
  next holds =>
    refine .bind (acts holds) ?_
    rintro _ _ rfl
    simpa only [holds, if_true] using rest
  next fails =>
    refine rest.mono (List.sublist_append_right files others) fun result more logged => ?_
    simpa only [fails, if_false, List.nil_append] using logged

end Performs

theorem writeTo_run (host : Host σ) (path contents : String) (run : Run σ) :
    writeTo host path contents run = match host.write path contents run.outside with
      | (.ok _, outside) =>
          (.ok (), { run with outside, effects := run.effects ++ [.wrote path contents] })
      | (.error cause, outside) =>
          (.error (.artifact path cause),
            { run with outside, effects := run.effects ++ [.failedToWrite path] }) := by
  cases written : host.write path contents run.outside with
  | mk result outside =>
    cases result <;> simp only [writeTo, bind_run, get_run, written, set_run, throw_run]

theorem performs_write (host : Host σ) (setup : Setup) (owned : String → Prop)
    (artifact : Artifact) (contents : String) (owns : owned (setup.store.path artifact)) :
    Performs host owned [setup.store.path artifact] (write host setup artifact contents) nothing
      fun _ added => added = [.wrote (setup.store.path artifact) contents] := by
  intro run
  rw [write, writeTo_run]
  split
  next outside written =>
    refine .gives ⟨rfl, rfl, by simp [nothing], rfl, .wrote written (.done outside)⟩ ?_ rfl
    exact ⟨by simp, by simpa [Effect.path] using owns⟩
  next cause outside refused =>
    refine .fails ⟨rfl, rfl, by simp, rfl, .failed refused (.done outside)⟩ ?_ (by simp)
    exact ⟨by simp, by simpa [Effect.path] using owns⟩

/-- What a host may say to a query, at some time and wherever the query is written. -/
def Replies (host : Host σ) (query : Query) (reply : Except SolverError Answer) : Prop :=
  ∃ path outside, (host.solve query path outside).1 = reply

theorem performs_ask (host : Host σ) {owned : String → Prop} (query : Query) (path : String)
    (owns : owned path) :
    Performs host owned [] (ask host query path) nothing fun reply added =>
      Replies host query reply ∧ added = [.asked query.kind path] := by
  intro run
  refine .gives ⟨rfl, rfl, by simp [nothing], rfl, .asked (.done _)⟩ ?_ ⟨⟨path, _, rfl⟩, rfl⟩
  exact ⟨by simp, by simpa [Effect.path] using owns⟩

end Run

end PathEquiv
