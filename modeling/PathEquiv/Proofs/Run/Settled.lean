import PathEquiv.Proofs.Run.Records

set_option autoImplicit false

namespace PathEquiv

variable {σ α β : Type}

def Host.settled (host : Host σ) (reply : QueryKind → Except SolverError Answer) : Host σ :=
  { host with solve := fun query path s => (reply query.kind, (host.solve query path s).2) }

namespace Run

variable {host : Host σ} {reply : QueryKind → Except SolverError Answer}

def Replied (host : Host σ) (reply : QueryKind → Except SolverError Answer) (s : σ)
    (effects : List Effect) : Prop :=
  ∀ before query path rest, effects = before ++ .asked (Query.kind query) path :: rest →
    ∀ reached, Reaches host s before reached →
      (host.solve query path reached).1 = reply query.kind

namespace Replied

variable {s middle : σ} {effects more : List Effect}

theorem left (replied : Replied host reply s (effects ++ more)) : Replied host reply s effects := by
  intro before query path rest split reached
  refine replied before query path (rest ++ more) ?_ reached
  rw [split, List.append_assoc, List.cons_append]

theorem right (replied : Replied host reply s (effects ++ more))
    (reaches : Reaches host s effects middle) : Replied host reply middle more := by
  intro before query path rest split reached further
  refine replied (effects ++ before) query path rest ?_ reached (reaches.append further)
  rw [split, List.append_assoc]

end Replied

/-- The second action does the same as the first wherever the host gives the settled replies. -/
def Follows (host : Host σ) (reply : QueryKind → Except SolverError Answer)
    (action settled : RunM σ α) : Prop :=
  ∀ run, ∃ added, (action run).2.effects = run.effects ++ added ∧
    Reaches host run.outside added (action run).2.outside ∧
      (Replied host reply run.outside added → settled run = action run)

namespace Follows

theorem still {action : RunM σ α} (effects : ∀ run, (action run).2.effects = run.effects)
    (outside : ∀ run, (action run).2.outside = run.outside) :
    Follows host reply action action := by
  intro run
  refine ⟨[], by rw [effects, List.append_nil], ?_, fun _ => rfl⟩
  rw [outside]
  exact .done run.outside

theorem bind {action settled : RunM σ α} {next settledNext : α → RunM σ β}
    (first : Follows host reply action settled)
    (rest : ∀ value, Follows host reply (next value) (settledNext value)) :
    Follows host reply (action >>= next) (settled >>= settledNext) := by
  intro run
  obtain ⟨added, effects, reaches, same⟩ := first run
  rw [bind_run, bind_run]
  generalize action run = outcome at effects reaches same ⊢
  obtain ⟨result, middle⟩ := outcome
  cases result with
  | error e =>
    refine ⟨added, effects, reaches, fun replied => ?_⟩
    rw [same replied]
  | ok value =>
    obtain ⟨more, further, onward, agree⟩ := rest value middle
    refine ⟨added ++ more, ?_, reaches.append onward, fun replied => ?_⟩
    next => rw [further, effects, List.append_assoc]
    next =>
      rw [same replied.left]
      exact agree (replied.right reaches)

theorem optional {condition : Prop} [Decidable condition] {action settled : RunM σ Unit}
    {next settledNext : Unit → RunM σ β} (acts : Follows host reply action settled)
    (rest : Follows host reply (next ()) (settledNext ())) :
    Follows host reply (if condition then action >>= next else next ())
      (if condition then settled >>= settledNext else settledNext ()) := by
  split
  next => exact acts.bind fun _ => rest
  next => exact rest

theorem write (setup : Setup) (artifact : Artifact) (contents : String) :
    Follows host reply (write host setup artifact contents)
      (Run.write (host.settled reply) setup artifact contents) := by
  intro run
  have same : Run.write (host.settled reply) setup artifact contents =
      Run.write host setup artifact contents := rfl
  rw [same, Run.write, writeTo_run]
  split
  next outside written => exact ⟨[_], rfl, .wrote written (.done outside), fun _ => rfl⟩
  next cause outside refused => exact ⟨[_], rfl, .failed refused (.done outside), fun _ => rfl⟩

theorem ask (query : Query) (path : String) :
    Follows host reply (ask host query path) (Run.ask (host.settled reply) query path) := by
  intro run
  refine ⟨[.asked query.kind path], rfl, .asked (.done _), fun replied => ?_⟩
  have said := replied [] query path [] rfl run.outside (.done run.outside)
  show ((Except.ok (reply query.kind) : Except EngineError _), _) = _
  rw [← said]
  rfl

theorem solveQuery (setup : Setup) (id : Nat) (calls : CallFlags) (query : Query)
    (progress : Progress) :
    Follows host reply (solveQuery host setup id calls query progress)
      (Run.solveQuery (host.settled reply) setup id calls query progress) := by
  unfold Run.solveQuery
  refine (write setup _ _).bind fun _ => (ask query _).bind fun _ => (write setup _ _).bind fun _ => ?_
  exact optional (write setup _ _) (optional (write setup _ _) (still (fun _ => rfl) fun _ => rfl))

theorem solveAll (setup : Setup) (id : Nat) (calls : CallFlags) (queries : List Query)
    (progress : Progress) :
    Follows host reply (solveAll host setup id calls queries progress)
      (Run.solveAll (host.settled reply) setup id calls queries progress) := by
  induction queries generalizing progress with
  | nil => exact still (fun _ => rfl) fun _ => rfl
  | cons query queries ih =>
    unfold Run.solveAll
    split
    next => exact still (fun _ => rfl) fun _ => rfl
    next => exact (solveQuery setup id calls query progress).bind ih

theorem conclude (setup : Setup) (progress : Progress) (calls : CallFlags)
    (record : Classification → Record) :
    Follows host reply (conclude host setup progress calls record)
      (Run.conclude (host.settled reply) setup progress calls record) := by
  unfold Run.conclude
  dsimp only
  split
  next => exact still (fun _ => rfl) fun _ => rfl
  next =>
    refine optional (write setup _ _) ((write setup _ _).bind fun _ => ?_)
    exact still (fun _ => rfl) fun _ => rfl

theorem compare (setup : Setup) (site : Site) :
    Follows host reply (compare host setup site)
      (Run.compare (host.settled reply) setup site) := by
  have lifted {γ : Type} (value : Except EngineError γ) :
      Follows host reply (liftM value : RunM σ γ) (liftM value) :=
    still (fun run => by rw [lift_run]) fun run => by rw [lift_run]
  unfold Run.compare
  refine (lifted _).bind fun queries => (lifted _).bind fun document => ?_
  refine (still (fun _ => rfl) fun _ => rfl).bind fun id => (write setup _ _).bind fun _ => ?_
  exact (solveAll setup id _ _ _).bind fun progress => conclude setup progress _ _

end Follows

end Run

end PathEquiv
