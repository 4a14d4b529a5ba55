import Mathlib.Data.List.Flatten
import Mathlib.Data.List.Nodup
import PathEquiv.Proofs.Path
import PathEquiv.Proofs.Text.Decimal
import PathEquiv.Run.Artifact

set_option autoImplicit false

namespace PathEquiv

theorem separated_inj {sep : Char} {first second rest other : List Char} (free : sep ∉ first)
    (otherFree : sep ∉ second) (same : first ++ sep :: rest = second ++ sep :: other) :
    first = second ∧ rest = other := by
  induction first generalizing second with
  | nil =>
    cases second with
    | nil => exact ⟨rfl, List.tail_eq_of_cons_eq same⟩
    | cons d second =>
      exact absurd (List.mem_cons.mpr (.inl (List.head_eq_of_cons_eq same))) otherFree
  | cons c first ih =>
    cases second with
    | nil => exact absurd (List.mem_cons.mpr (.inl (List.head_eq_of_cons_eq same).symm)) free
    | cons d second =>
      simp only [List.mem_cons, not_or] at free otherFree
      obtain ⟨firstEq, restEq⟩ := ih free.2 otherFree.2 (List.tail_eq_of_cons_eq same)
      have head : c = d := List.head_eq_of_cons_eq same
      exact ⟨by rw [head, firstEq], restEq⟩

theorem numbered_inj {n m : Nat} {rest other : List Char}
    (same : (Text.natText n).toList ++ '-' :: rest = (Text.natText m).toList ++ '-' :: other) :
    n = m ∧ rest = other := by
  obtain ⟨number, tail⟩ := separated_inj (Text.not_mem_natText (by decide) n)
    (Text.not_mem_natText (by decide) m) same
  exact ⟨Text.natText_injective (String.toList_inj.mp number), tail⟩

def queryFiles (kind : QueryKind) : List PartitionFile :=
  [.toSolve kind, .answer kind] ++ (if kind.asksModel then [.model] else []) ++ [.errors kind]

namespace PartitionFile

def all : List PartitionFile :=
  .condition :: QueryKind.all.flatMap queryFiles ++ [.hasCalls, .record]

theorem mem_all (file : PartitionFile) : file ∈ all := by
  cases file with
  | toSolve kind => cases kind <;> decide
  | answer kind => cases kind <;> decide
  | errors kind => cases kind <;> decide
  | _ => decide

theorem nodup_all : all.Nodup := by
  decide

theorem sublist_all {kinds : List QueryKind} (within : kinds.Sublist QueryKind.all) :
    (condition :: kinds.flatMap queryFiles ++ [hasCalls, record]).Sublist all :=
  ((within.flatMap queryFiles).cons_cons condition).append_right [hasCalls, record]

theorem suffix_injective : Function.Injective suffix := by
  have distinct : (all.map suffix).Nodup := by decide +kernel
  intro first second same
  exact List.inj_on_of_nodup_map distinct (mem_all first) (mem_all second) same

end PartitionFile

namespace Artifact

def tag (artifact : Artifact) : List Char :=
  (artifact.fileName "").toList.tail

theorem tag_partition (id : Nat) (file : PartitionFile) :
    (Artifact.partition id file).tag =
      'P' :: ((Text.natText id).toList ++ '-' :: file.suffix.toList) := by
  simp [tag, fileName]

theorem tag_choice (state number : Nat) :
    (Artifact.choice state number).tag =
      'S' :: ((Text.natText state).toList ++ '-' ::
        ('C' :: ((Text.natText number).toList ++ '-' :: "JSON-PC.json".toList))) := by
  simp [tag, fileName]

theorem tag_result : Artifact.result.tag = 'R' :: "esult.json".toList := by
  simp [tag, fileName]

theorem fileName_toList (runId : String) (artifact : Artifact) :
    (artifact.fileName runId).toList = runId.toList ++ '-' :: artifact.tag := by
  cases artifact <;> simp [fileName, tag]

theorem tag_injective : Function.Injective tag := by
  intro first second same
  cases first with
  | partition id file =>
    cases second with
    | partition otherId otherFile =>
      rw [tag_partition, tag_partition] at same
      obtain ⟨number, suffix⟩ := numbered_inj (List.tail_eq_of_cons_eq same)
      rw [number, PartitionFile.suffix_injective (String.toList_inj.mp suffix)]
    | choice => simp [tag_partition, tag_choice] at same
    | result => simp [tag_partition, tag_result] at same
  | choice state number =>
    cases second with
    | partition => simp [tag_partition, tag_choice] at same
    | choice otherState otherNumber =>
      rw [tag_choice, tag_choice] at same
      obtain ⟨states, rest⟩ := numbered_inj (List.tail_eq_of_cons_eq same)
      obtain ⟨numbers, -⟩ := numbered_inj (List.tail_eq_of_cons_eq rest)
      rw [states, numbers]
    | result => simp [tag_choice, tag_result] at same
  | result =>
    cases second with
    | partition => simp [tag_partition, tag_result] at same
    | choice => simp [tag_choice, tag_result] at same
    | result => rfl

theorem fileName_injective (runId : String) : Function.Injective (fileName runId) := by
  intro first second same
  have chars := congrArg String.toList same
  rw [fileName_toList, fileName_toList, List.append_cancel_left_eq] at chars
  exact tag_injective (List.tail_eq_of_cons_eq chars)

def partitionStart (runId : String) (id : Nat) : String :=
  runId ++ "-P" ++ Text.natText id ++ "-"

theorem fileName_partition (runId : String) (id : Nat) (file : PartitionFile) :
    (Artifact.partition id file).fileName runId = partitionStart runId id ++ file.suffix := rfl

theorem eq_partition_of_start {runId : String} {id : Nat} {artifact : Artifact}
    (start : (partitionStart runId id).toList <+: (artifact.fileName runId).toList) :
    ∃ file, artifact = .partition id file := by
  obtain ⟨rest, same⟩ := start
  have tag : 'P' :: ((Text.natText id).toList ++ '-' :: rest) = artifact.tag := by
    simpa [partitionStart, fileName_toList] using same
  cases artifact with
  | partition other file =>
    rw [tag_partition] at tag
    obtain ⟨number, -⟩ := numbered_inj (List.tail_eq_of_cons_eq tag)
    exact ⟨file, by rw [number]⟩
  | choice => simp [tag_choice] at tag
  | result => simp [tag_result] at tag

end Artifact

theorem ArtifactStore.path_injective (store : ArtifactStore) :
    Function.Injective store.path := by
  intro first second same
  apply Artifact.fileName_injective store.runId
  apply Path.join_inj same
  simp only [Path.isAbsolute, Artifact.fileName_toList]
  -- Both names start with the run identifier or, without one, with a hyphen.
  cases store.runId.toList <;> rfl

theorem safe_of_mem_sanitizeRunId {raw : String} {c : Char}
    (member : c ∈ (sanitizeRunId raw).toList) :
    (c.isAlphanum || c == '-' || c == '_') = true := by
  have kept {d : Char} (inside : d ∈ raw.toList.filterMap safeChar?) :
      (d.isAlphanum || d == '-' || d == '_') = true := by
    obtain ⟨given, -, safe⟩ := List.mem_filterMap.mp inside
    unfold safeChar? at safe
    split at safe
    next allowed => exact Option.some.inj safe ▸ allowed
    next =>
      split at safe
      next => exact Option.some.inj safe ▸ rfl
      next => cases safe
  have trimmed {cs : List Char} (inside : c ∈ trimUnderscores cs) : c ∈ cs := by
    simp only [trimUnderscores, List.mem_reverse] at inside
    have shorter := (List.dropWhile_suffix _).subset inside
    exact (List.dropWhile_suffix _).subset (List.mem_reverse.mp shorter)
  unfold sanitizeRunId at member
  split at member
  next =>
    have word : "run".toList.all (fun d => d.isAlphanum || d == '-' || d == '_') = true := by decide
    exact List.all_eq_true.mp word c member
  next => exact kept (trimmed (by simpa using member))

def isFileChar (c : Char) : Bool :=
  c.isAlphanum || c == '-' || c == '_' || c == '.'

theorem isFileChar_of_mem_natText {n : Nat} {c : Char} (member : c ∈ (Text.natText n).toList) :
    isFileChar c = true := by
  rw [Text.toList_natText] at member
  have digit := Nat.isDigit_of_mem_toDigits (by decide) (by decide) member
  have alphanumeric : c.isAlphanum = true := Bool.or_eq_true_iff.mpr (.inr digit)
  rw [isFileChar, alphanumeric]
  rfl

theorem isFileChar_of_mem_suffix {file : PartitionFile} {c : Char}
    (member : c ∈ file.suffix.toList) : isFileChar c = true := by
  have all : PartitionFile.all.all (fun file => file.suffix.toList.all isFileChar) = true := by
    decide +kernel
  exact List.all_eq_true.mp (List.all_eq_true.mp all file (PartitionFile.mem_all file)) c member

theorem isFileChar_of_mem_tag {artifact : Artifact} {c : Char} (member : c ∈ artifact.tag) :
    isFileChar c = true := by
  cases artifact with
  | partition id file =>
    simp only [Artifact.tag_partition, List.mem_cons, List.mem_append] at member
    rcases member with rfl | number | rfl | suffix
    · decide
    · exact isFileChar_of_mem_natText number
    · decide
    · exact isFileChar_of_mem_suffix suffix
  | choice state choice =>
    have suffix : "JSON-PC.json".toList.all isFileChar = true := by decide
    simp only [Artifact.tag_choice, List.mem_cons, List.mem_append] at member
    rcases member with rfl | number | rfl | rfl | number | rfl | last
    · decide
    · exact isFileChar_of_mem_natText number
    · decide
    · decide
    · exact isFileChar_of_mem_natText number
    · decide
    · exact List.all_eq_true.mp suffix c last
  | result =>
    have name : ('R' :: "esult.json".toList).all isFileChar = true := by decide
    rw [Artifact.tag_result] at member
    exact List.all_eq_true.mp name c member

theorem isFileChar_of_mem_fileName {raw : String} {artifact : Artifact} {c : Char}
    (member : c ∈ (artifact.fileName (sanitizeRunId raw)).toList) : isFileChar c = true := by
  rw [Artifact.fileName_toList, List.mem_append, List.mem_cons] at member
  rcases member with run | rfl | tag
  · rw [isFileChar, safe_of_mem_sanitizeRunId run]
    rfl
  · decide
  · exact isFileChar_of_mem_tag tag

theorem isName_fileName (raw : String) (artifact : Artifact) :
    Path.IsName (artifact.fileName (sanitizeRunId raw)) := by
  have hyphen : '-' ∈ (artifact.fileName (sanitizeRunId raw)).toList := by
    simp [Artifact.fileName_toList]
  refine ⟨?_, ?_, ?_, fun slash => ?_⟩
  case refine_4 => cases isFileChar_of_mem_fileName slash
  all_goals
    intro same
    rw [same] at hyphen
    revert hyphen
    decide

end PathEquiv
