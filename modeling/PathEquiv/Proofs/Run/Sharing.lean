import Mathlib.Data.List.DropRight
import PathEquiv.Proofs.Disk
import PathEquiv.Proofs.Json.Tokens
import PathEquiv.Proofs.Run.Ledger

set_option autoImplicit false

namespace PathEquiv

structure IsRunId (id : String) : Prop where
  nonempty : id ≠ ""
  safe : ∀ c ∈ id.toList, (c.isAlphanum || c == '-' || c == '_') = true
  starts : id.toList.head? ≠ some '_'
  ends : id.toList.getLast? ≠ some '_'

theorem head_trimUnderscores (cs : List Char) : (trimUnderscores cs).head? ≠ some '_' := by
  intro head
  obtain ⟨more, whole⟩ : trimUnderscores cs <+: cs.dropWhile (· == '_') :=
    List.rdropWhile_prefix (· == '_') (cs.dropWhile (· == '_'))
  have first : (cs.dropWhile (· == '_')).head? = some '_' := by
    rw [← whole, List.head?_append, head, Option.some_or]
  have stopped := List.head?_dropWhile_not (· == '_') cs
  rw [first] at stopped
  cases stopped

theorem getLast_trimUnderscores (cs : List Char) : (trimUnderscores cs).getLast? ≠ some '_' := by
  intro last
  rw [trimUnderscores, List.getLast?_reverse] at last
  have stopped := List.head?_dropWhile_not (· == '_') (cs.dropWhile (· == '_')).reverse
  rw [last] at stopped
  cases stopped

theorem dropWhile_of_head {cs : List Char} (other : cs.head? ≠ some '_') :
    cs.dropWhile (· == '_') = cs := by
  cases cs with
  | nil => rfl
  | cons c cs =>
    have apart : (c == '_') = false := by simpa using other
    rw [List.dropWhile_cons, apart, if_neg Bool.false_ne_true]

theorem trimUnderscores_eq_self {cs : List Char} (starts : cs.head? ≠ some '_')
    (ends : cs.getLast? ≠ some '_') : trimUnderscores cs = cs := by
  have reversed : cs.reverse.head? ≠ some '_' := by rwa [List.head?_reverse]
  rw [trimUnderscores, dropWhile_of_head starts, dropWhile_of_head reversed, List.reverse_reverse]

theorem sanitizeRunId_of_ne_nil {raw : String} {cs : List Char}
    (trimmed : trimUnderscores (raw.toList.filterMap safeChar?) = cs) (given : cs ≠ []) :
    sanitizeRunId raw = String.ofList cs := by
  unfold sanitizeRunId
  rw [trimmed]
  split
  next => exact absurd rfl given
  next => rfl

theorem isRunId_sanitizeRunId (raw : String) : IsRunId (sanitizeRunId raw) := by
  have safe (c : Char) (member : c ∈ (sanitizeRunId raw).toList) := safe_of_mem_sanitizeRunId member
  have starts := head_trimUnderscores (raw.toList.filterMap safeChar?)
  have ends := getLast_trimUnderscores (raw.toList.filterMap safeChar?)
  cases trimmed : trimUnderscores (raw.toList.filterMap safeChar?) with
  | nil =>
    have fallback : sanitizeRunId raw = "run" := by rw [sanitizeRunId, trimmed]
    rw [fallback] at safe ⊢
    exact ⟨by decide, safe, by decide, by decide⟩
  | cons c cs =>
    rw [sanitizeRunId_of_ne_nil trimmed (List.cons_ne_nil c cs)] at safe ⊢
    rw [trimmed] at starts ends
    exact ⟨by simp, safe, by simpa using starts, by simpa using ends⟩

theorem filterMap_safeChar {cs : List Char}
    (safe : ∀ c ∈ cs, (c.isAlphanum || c == '-' || c == '_') = true) :
    cs.filterMap safeChar? = cs := by
  induction cs with
  | nil => rfl
  | cons c cs ih =>
    have kept : safeChar? c = some c := by rw [safeChar?, safe c (by simp), if_pos rfl]
    rw [List.filterMap_cons_some kept, ih fun d member => safe d (by simp [member])]

theorem IsRunId.sanitizeRunId_eq {id : String} (own : IsRunId id) : sanitizeRunId id = id := by
  have trimmed : trimUnderscores (id.toList.filterMap safeChar?) = id.toList := by
    rw [filterMap_safeChar own.safe, trimUnderscores_eq_self own.starts own.ends]
  have given : id.toList ≠ [] := fun empty => own.nonempty (String.toList_inj.mp empty)
  rw [sanitizeRunId_of_ne_nil trimmed given, String.ofList_toList]

namespace Artifact

def opensTag : List Char → Bool
  | 'P' :: c :: _ | 'S' :: c :: _ => Text.isDecimalDigit c
  | 'R' :: _ => true
  | _ => false

def closed : List Char → Bool
  | [] => true
  | c :: rest => (c != '-' || !opensTag rest) && closed rest

theorem closed_append {cs : List Char} (free : '-' ∉ cs) (rest : List Char) :
    closed (cs ++ rest) = closed rest := by
  induction cs with
  | nil => rfl
  | cons c cs ih =>
    rw [List.mem_cons, not_or] at free
    have other : (c != '-') = true := by simpa using Ne.symm free.1
    simp [closed, other, ih free.2]

theorem opensTag_of_closed {before rest : List Char}
    (whole : closed (before ++ '-' :: rest) = true) : opensTag rest = false := by
  induction before with
  | nil =>
    have hyphen : (!opensTag rest && closed rest) = true := whole
    simp_all
  | cons c before ih =>
    rw [List.cons_append, closed, Bool.and_eq_true] at whole
    exact ih whole.2

theorem opensTag_number {letter : Char} (known : letter = 'P' ∨ letter = 'S') (n : Nat)
    (rest : List Char) : opensTag (letter :: ((Text.natText n).toList ++ rest)) = true := by
  obtain ⟨c, cs, shape, digit⟩ := Text.natText_cons n
  rw [shape]
  rcases known with rfl | rfl
  · exact digit
  · exact digit

theorem opensTag_tag (artifact : Artifact) : opensTag artifact.tag = true := by
  cases artifact with
  | partition id file =>
    rw [tag_partition]
    exact opensTag_number (.inl rfl) id _
  | choice state number =>
    rw [tag_choice]
    exact opensTag_number (.inr rfl) state _
  | result =>
    rw [tag_result]
    rfl

theorem closed_numbered {letter : Char} (solid : letter ≠ '-') (n : Nat) (rest : List Char) :
    closed (letter :: ((Text.natText n).toList ++ '-' :: rest)) =
      (!opensTag rest && closed rest) := by
  have free : '-' ∉ letter :: (Text.natText n).toList := by
    rw [List.mem_cons, not_or]
    exact ⟨solid.symm, Text.not_mem_natText (by decide) _⟩
  have skipped := closed_append free ('-' :: rest)
  rw [List.cons_append] at skipped
  rw [skipped]
  rfl

theorem closed_tag (artifact : Artifact) : closed artifact.tag = true := by
  cases artifact with
  | partition id file =>
    have suffixes : PartitionFile.all.all (fun file =>
        !opensTag file.suffix.toList && closed file.suffix.toList) = true := by
      decide +kernel
    rw [tag_partition, closed_numbered (by decide)]
    exact List.all_eq_true.mp suffixes file (PartitionFile.mem_all file)
  | choice state number =>
    have chosen : (!opensTag "JSON-PC.json".toList && closed "JSON-PC.json".toList) = true := by
      decide
    rw [tag_choice, closed_numbered (by decide), closed_numbered (by decide), chosen]
    rfl
  | result =>
    rw [tag_result]
    decide

theorem eq_nil_of_tag {artifact other : Artifact} {more : List Char}
    (same : '-' :: artifact.tag = more ++ '-' :: other.tag) : more = [] := by
  cases more with
  | nil => rfl
  | cons c more =>
    have whole := closed_tag artifact
    rw [List.tail_eq_of_cons_eq same] at whole
    cases (opensTag_tag other).symm.trans (opensTag_of_closed whole)

theorem fileName_unique {first second : String} {artifact other : Artifact}
    (same : artifact.fileName first = other.fileName second) :
    first = second ∧ artifact = other := by
  have chars := congrArg String.toList same
  rw [fileName_toList, fileName_toList, List.append_eq_append_iff] at chars
  have runs : first = second := by
    apply String.toList_inj.mp
    -- A longer identifier would end inside the tag of the other file.
    rcases chars with ⟨more, longer, tail⟩ | ⟨more, longer, tail⟩
    · rw [longer, eq_nil_of_tag tail, List.append_nil]
    · rw [longer, eq_nil_of_tag tail, List.append_nil]
  subst runs
  exact ⟨rfl, fileName_injective first same⟩

end Artifact

namespace Run

theorem parts_artifact (directory raw : String) (artifact : Artifact) :
    Path.parts ((ArtifactStore.ofRunId directory raw).path artifact) =
      Path.parts directory ++ [.name (artifact.fileName (sanitizeRunId raw))] :=
  Path.parts_join directory (isName_fileName raw artifact)

theorem parts_effect {σ : Type} (host : Host σ) (config : Config) (outside : σ)
    (events : List Event) (finished : Bool) :
    ∀ effect ∈ (ended host config.setup finished
        (after host config.setup { outside } events)).effects,
      ∃ artifact : Artifact, Path.parts effect.path = Path.parts config.outputDir ++
        [.name (artifact.fileName (sanitizeRunId config.runId))] := by
  intro effect done
  have archive : Archive host config.setup outside (after host config.setup { outside } events) :=
    after_induction .initial fun _ stepped archive => archive.step stepped
  obtain ⟨artifact, path⟩ := archive.artifact_ended finished effect done
  refine ⟨artifact, ?_⟩
  rw [path]
  exact parts_artifact config.outputDir config.runId artifact

/-- Every file of a run is an entry of its directory, and its name tells the run and the artifact.
So two runs with different identifiers touch no file in common, also in one directory. -/
theorem artifact_names_confined_and_distinct :
    (∀ raw : String, IsRunId (sanitizeRunId raw) ∧
      sanitizeRunId (sanitizeRunId raw) = sanitizeRunId raw) ∧
    (∀ (directory raw : String) (artifact : Artifact),
      let name := artifact.fileName (sanitizeRunId raw)
      Path.IsName name ∧ '\\' ∉ name.toList ∧
        Path.parts ((ArtifactStore.ofRunId directory raw).path artifact) =
          Path.parts directory ++ [.name name]) ∧
    (∀ (raw other : String) (first second : Artifact),
      first.fileName (sanitizeRunId raw) = second.fileName (sanitizeRunId other) →
        sanitizeRunId raw = sanitizeRunId other ∧ first = second) ∧
    ∀ {σ τ : Type} (host : Host σ) (host' : Host τ) (config config' : Config) (outside : σ)
      (outside' : τ) (events events' : List Event) (finished finished' : Bool),
      sanitizeRunId config.runId ≠ sanitizeRunId config'.runId →
      let run := ended host config.setup finished (after host config.setup { outside } events)
      let run' := ended host' config'.setup finished'
        (after host' config'.setup { outside := outside' } events')
      ∀ effect ∈ run.effects, ∀ effect' ∈ run'.effects,
        Path.parts effect.path ≠ Path.parts effect'.path := by
  refine ⟨?_, ?_, ?_, ?_⟩
  next =>
    intro raw
    have own := isRunId_sanitizeRunId raw
    exact ⟨own, own.sanitizeRunId_eq⟩
  next =>
    intro directory raw artifact name
    refine ⟨isName_fileName raw artifact, fun member => ?_, parts_artifact directory raw artifact⟩
    cases isFileChar_of_mem_fileName member
  next => exact fun raw other first second same => Artifact.fileName_unique same
  next =>
    intro σ τ host host' config config' outside outside' events events' finished finished' apart
      run run' effect done effect' done' same
    obtain ⟨artifact, parts⟩ := parts_effect host config outside events finished effect done
    obtain ⟨artifact', parts'⟩ :=
      parts_effect host' config' outside' events' finished' effect' done'
    rw [parts, parts'] at same
    -- The last parts of the two paths are the names of the files.
    have names := (List.append_inj' same rfl).2
    rw [List.cons.injEq, Path.Part.name.injEq] at names
    exact apart (Artifact.fileName_unique names.1).1

theorem artifact_names_confined_and_distinct_nested :
    let host := flaky (fun _ => false) fun _ => .ok ⟨.sat, none, "", {}⟩
    let config : Config := { runId := "a" }
    let config' : Config := { runId := " a-P1-S2-C3/" }
    let run := ended host config.setup true (after host config.setup { outside := 0 }
      [.depthLimit none, .choice 2 3 (some (.bool true))])
    let run' := ended host config'.setup true (after host config'.setup { outside := 0 }
      [.comparison ⟨none, .int 1, .int 2, {}⟩])
    sanitizeRunId config'.runId = "a-P1-S2-C3" ∧
      run.effects.length = 7 ∧ run'.effects.length = 14 ∧
      ∀ effect ∈ run.effects, ∀ effect' ∈ run'.effects,
        Path.parts effect.path ≠ Path.parts effect'.path := by
  intro host config config' run run'
  refine ⟨by decide, by decide +kernel, by decide +kernel, ?_⟩
  exact artifact_names_confined_and_distinct.2.2.2 host host config config' 0 0
    [.depthLimit none, .choice 2 3 (some (.bool true))]
    [.comparison ⟨none, .int 1, .int 2, {}⟩] true true (by decide)

end Run

end PathEquiv
