import DddFramework.Library.Tasks

/-! `S3Client.upload_stream`: a multipart upload, which stays open at S3 until it is completed
or aborted. -/
namespace DddFramework.S3
open Library Task

abbrev Bytes := List UInt8

/-- What a call raises: an `Exception`, or the cancellation of its task, which is none. -/
inductive Raised where
  | exception (message : String)
  | cancelled
deriving DecidableEq

def Raised.isException : Raised → Bool
  | .exception _ => true
  | .cancelled => false

structure Part where
  eTag : String
  partNumber : Nat
deriving DecidableEq

inductive Call where
  | createMultipartUpload (bucket key contentType : String)
  | read (size : Int)
  | uploadPart (bucket key uploadId : String) (partNumber : Nat) (body : Bytes)
  | abortMultipartUpload (bucket key uploadId : String)
  | putObject (bucket key contentType : String) (body : Bytes)
  | completeMultipartUpload (bucket key uploadId : String) (parts : List Part)
deriving DecidableEq

def Call.uploadId : Call → Option String
  | .uploadPart _ _ uploadId _ _ => some uploadId
  | .abortMultipartUpload _ _ uploadId => some uploadId
  | .completeMultipartUpload _ _ uploadId _ => some uploadId
  | _ => none

def Call.aborts (uploadId : String) : Call → Bool
  | .abortMultipartUpload _ _ other => other == uploadId
  | _ => false

def Call.completes (uploadId : String) : Call → Bool
  | .completeMultipartUpload _ _ other _ => other == uploadId
  | _ => false

/-- The answers to the calls: an id of a new upload, and a tag of a part by its number. -/
structure Service where
  createMultipartUpload : Except Raised String
  uploadPart : Nat → Except Raised String
  completeMultipartUpload : Except Raised Unit
  putObject : Except Raised Unit

/-- The answers of a stream to its reads, up to its end. Reads after that give no bytes. -/
abbrev FileStream := List (Except Raised Bytes)

abbrev CallLog := Log Call Raised

/-- An open upload can be aborted; one that has been completed or aborted is not found. -/
def abortAnswer (uploadId : String) (log : CallLog) : Except Raised Unit :=
  if log.any fun x => x.raised.isNone && (x.call.aborts uploadId || x.call.completes uploadId) then
    .error (.exception "NoSuchUpload")
  else .ok ()

def defaultMinChunkSize : Int := 5 * 1024 * 1024

structure Request where
  bucket : String
  storageKey : String
  mimeType : String
  chunkSize : Int := defaultMinChunkSize

section upload
variable (service : Service) (request : Request) (uploadId : String)

def abortUpload : Task Call Raised Unit :=
  await (.abortMultipartUpload request.bucket request.storageKey uploadId) (abortAnswer uploadId)

def uploadParts (partNumber : Nat) (parts : List Part) :
    FileStream → Task Call Raised (List Part)
  | [] => do
    let _ ← await (.read request.chunkSize) fun _ => (.ok [] : Except Raised Bytes)
    return parts
  | answer :: stream => do
    let chunk ← await (.read request.chunkSize) fun _ => answer
    if chunk.isEmpty then return parts
    else
      let eTag ← await (.uploadPart request.bucket request.storageKey uploadId partNumber chunk)
        fun _ => service.uploadPart partNumber
      uploadParts (partNumber + 1) (parts ++ [⟨eTag, partNumber⟩]) stream

/-- What follows the loop. An upload without parts cannot be completed. -/
def finishUpload (parts : List Part) : Task Call Raised Unit :=
  if parts.isEmpty then do
    abortUpload request uploadId
    await (.putObject request.bucket request.storageKey request.mimeType [])
      fun _ => service.putObject
  else
    await (.completeMultipartUpload request.bucket request.storageKey uploadId parts)
      fun _ => service.completeMultipartUpload

def uploadBody (fileStream : FileStream) : Task Call Raised Unit := do
  let parts ← uploadParts service request uploadId 1 [] fileStream
  finishUpload service request uploadId parts

def uploadStream (fileStream : FileStream) : Task Call Raised Unit :=
  if request.chunkSize < defaultMinChunkSize then
    raise (.exception "chunk_size must be at least 5 MiB for S3 multipart upload.")
  else do
    let uploadId ←
      await (.createMultipartUpload request.bucket request.storageKey request.mimeType)
        fun _ => service.createMultipartUpload
    catching Raised.isException (uploadBody service request uploadId fileStream)
      (fun raised => do
        abortUpload request uploadId
        raise raised)

end upload

/-- An upload is closed once, not touched afterwards, and what interrupted the run leaves it. -/
structure ClosedOnce (uploadId : String) (result : Except Raised Unit) (log : CallLog) : Prop where
  closing :
    ((∃ x ∈ log, x.call.completes uploadId ∧ x.raised = none) ∧
        log.countP (·.call.aborts uploadId) = 0) ∨
      log.countP (·.call.aborts uploadId) = 1
  untouched : log.Pairwise fun x y => x.call.aborts uploadId → y.call.uploadId ≠ some uploadId
  raised : raisedOf result = log.interruption

instance (uploadId : String) (result : Except Raised Unit) (log : CallLog) :
    Decidable (ClosedOnce uploadId result log) :=
  decidable_of_iff
    ((((∃ x ∈ log, x.call.completes uploadId ∧ x.raised = none) ∧
          log.countP (·.call.aborts uploadId) = 0) ∨
        log.countP (·.call.aborts uploadId) = 1) ∧
      log.Pairwise (fun x y => x.call.aborts uploadId → y.call.uploadId ≠ some uploadId) ∧
      raisedOf result = log.interruption)
    ⟨fun h => ⟨h.1, h.2.1, h.2.2⟩, fun h => ⟨h.closing, h.untouched, h.raised⟩⟩

section paths
variable (service : Service) (fileStream : FileStream)

def Service.Accepts (partNumber k : Nat) (fileStream : FileStream) : Prop :=
  ∀ i < k, ∃ chunk eTag, fileStream[i]? = some (.ok chunk) ∧ chunk ≠ [] ∧
    service.uploadPart (partNumber + i) = .ok eTag

def Service.Interrupts (raised : Raised) : Prop :=
  ∃ k, service.Accepts 1 k fileStream ∧
    (fileStream[k]? = some (.error raised) ∨
      ∃ chunk, fileStream[k]? = some (.ok chunk) ∧ chunk ≠ [] ∧
        service.uploadPart (1 + k) = .error raised)

def Service.Delivers (k : Nat) : Prop :=
  service.Accepts 1 k fileStream ∧ (fileStream[k]? = none ∨ fileStream[k]? = some (.ok []))

/-- No cancellation where the upload is open, and for an empty stream no exception once the
upload has been aborted. -/
structure Service.Spares : Prop where
  parts : ¬ service.Interrupts fileStream .cancelled
  complete : ∀ k, 0 < k → service.Delivers fileStream k →
    service.completeMultipartUpload ≠ .error .cancelled
  put : service.Delivers fileStream 0 → ∀ message,
    service.putObject ≠ .error (.exception message)

end paths

section loop
variable {service : Service} {request : Request} {uploadId : String}

def Quiet (uploadId : String) (x : Await Call Raised) : Prop :=
  x.raised = none ∧ x.call.aborts uploadId = false ∧ x.call.completes uploadId = false

theorem quiet_append_read {log : CallLog} {size : Int} (h : ∀ x ∈ log, Quiet uploadId x) :
    ∀ x ∈ log ++ [⟨.read size, none⟩], Quiet uploadId x := by
  intro x hx
  rcases List.mem_append.mp hx with hx | hx
  · exact h x hx
  · rw [List.mem_singleton.mp hx]
    exact ⟨rfl, rfl, rfl⟩

def taken (request : Request) (uploadId : String) (partNumber : Nat) (chunk : Bytes) : CallLog :=
  [⟨.read request.chunkSize, none⟩,
    ⟨.uploadPart request.bucket request.storageKey uploadId partNumber chunk, none⟩]

theorem quiet_of_mem_taken {partNumber : Nat} {chunk : Bytes} {x : Await Call Raised}
    (h : x ∈ taken request uploadId partNumber chunk) : Quiet uploadId x := by
  rcases List.mem_pair.mp h with rfl | rfl
  · exact ⟨rfl, rfl, rfl⟩
  · exact ⟨rfl, rfl, rfl⟩

theorem uploadParts_cons {partNumber : Nat} {parts : List Part} {chunk : Bytes} {eTag : String}
    {stream : FileStream} {log awaits : CallLog} {result : Except Raised (List Part)}
    (hchunk : chunk ≠ []) (hpart : service.uploadPart partNumber = .ok eTag)
    (h : Ends (uploadParts service request uploadId (partNumber + 1)
      (parts ++ [⟨eTag, partNumber⟩]) stream)
      (log ++ taken request uploadId partNumber chunk) result awaits) :
    Ends (uploadParts service request uploadId partNumber parts (.ok chunk :: stream)) log result
      (taken request uploadId partNumber chunk ++ awaits) := by
  rw [uploadParts]
  apply ends_await_bind rfl
  rw [if_neg (by simpa using hchunk)]
  apply ends_await_bind hpart
  rw [List.append_assoc]
  exact h

theorem uploadParts_accepts (request : Request) (uploadId : String) {fileStream : FileStream}
    {partNumber k : Nat} (h : service.Accepts partNumber k fileStream) (parts : List Part)
    (log : CallLog) :
    ∃ sent uploaded, (∀ x ∈ sent, Quiet uploadId x) ∧ uploaded.length = parts.length + k ∧
      ∀ result awaits,
        Ends (uploadParts service request uploadId (partNumber + k) uploaded
          (fileStream.drop k)) (log ++ sent) result awaits →
        Ends (uploadParts service request uploadId partNumber parts fileStream) log result
          (sent ++ awaits) := by
  induction k generalizing fileStream partNumber parts log with
  | zero => exact ⟨[], parts, by simp, by simp, fun result awaits hends => by simpa using hends⟩
  | succ k ih =>
    obtain ⟨chunk, eTag, hread, hchunk, hpart⟩ := h 0 (by omega)
    cases fileStream with
    | nil => simp at hread
    | cons answer stream =>
      obtain rfl : answer = .ok chunk := by simpa using hread
      have hstream : service.Accepts (partNumber + 1) k stream := by
        intro i hi
        have hnext := h (i + 1) (by omega)
        simpa only [List.getElem?_cons_succ, Nat.add_assoc, Nat.add_comm 1] using hnext
      obtain ⟨sent, uploaded, hquiet, hlength, hrun⟩ := ih hstream (parts ++ [⟨eTag, partNumber⟩])
        (log ++ taken request uploadId partNumber chunk)
      refine ⟨taken request uploadId partNumber chunk ++ sent, uploaded, ?_, ?_, ?_⟩
      · intro x hx
        exact (List.mem_append.mp hx).elim quiet_of_mem_taken (hquiet x)
      · rw [hlength, List.length_append, List.length_singleton]
        omega
      · intro result awaits hends
        rw [List.append_assoc]
        apply uploadParts_cons hchunk hpart
        apply hrun
        rw [List.append_assoc]
        have hnumber : partNumber + 1 + k = partNumber + (k + 1) := by omega
        rw [hnumber]
        exact hends

theorem drop_of_getElem? {fileStream : FileStream} {k : Nat} {answer : Except Raised Bytes}
    (h : fileStream[k]? = some answer) :
    fileStream.drop k = answer :: fileStream.drop (k + 1) := by
  obtain ⟨hk, rfl⟩ := List.getElem?_eq_some_iff.mp h
  exact List.drop_eq_getElem_cons hk

theorem uploadParts_interrupted {fileStream : FileStream} {raised : Raised}
    (h : service.Interrupts fileStream raised) (log : CallLog) :
    ∃ sent call, (∀ x ∈ sent, Quiet uploadId x) ∧ call.aborts uploadId = false ∧
      Ends (uploadParts service request uploadId 1 [] fileStream) log (.error raised)
        (sent ++ [⟨call, some raised⟩]) := by
  obtain ⟨k, haccepts, hstop⟩ := h
  obtain ⟨sent, uploaded, hquiet, -, hrun⟩ :=
    uploadParts_accepts request uploadId haccepts [] log
  rcases hstop with hread | ⟨chunk, hread, hchunk, hpart⟩
  · refine ⟨sent, .read request.chunkSize, hquiet, rfl, hrun _ _ ?_⟩
    rw [drop_of_getElem? hread, uploadParts]
    exact ends_await_bind_error rfl
  · refine ⟨sent ++ [⟨.read request.chunkSize, none⟩], .uploadPart request.bucket
      request.storageKey uploadId (1 + k) chunk, ?_, rfl, ?_⟩
    · exact quiet_append_read hquiet
    · rw [List.append_assoc]
      apply hrun
      rw [drop_of_getElem? hread, uploadParts]
      apply ends_await_bind rfl
      rw [if_neg (by simpa using hchunk)]
      exact ends_await_bind_error hpart

theorem uploadParts_delivered {fileStream : FileStream} {k : Nat}
    (h : service.Delivers fileStream k) (log : CallLog) :
    ∃ sent uploaded, (∀ x ∈ sent, Quiet uploadId x) ∧ uploaded.length = k ∧
      Ends (uploadParts service request uploadId 1 [] fileStream) log (.ok uploaded) sent := by
  obtain ⟨haccepts, hend⟩ := h
  obtain ⟨sent, uploaded, hquiet, hlength, hrun⟩ :=
    uploadParts_accepts request uploadId haccepts [] log
  refine ⟨sent ++ [⟨.read request.chunkSize, none⟩], uploaded, ?_, by simpa using hlength,
    hrun _ _ ?_⟩
  · exact quiet_append_read hquiet
  · rcases hend with hend | hend
    · rw [List.drop_eq_nil_of_le (List.getElem?_eq_none_iff.mp hend), uploadParts]
      apply ends_await_bind rfl
      exact ends_pure ..
    · rw [drop_of_getElem? hend, uploadParts]
      apply ends_await_bind rfl
      exact ends_pure ..

theorem Service.Accepts.succ {fileStream : FileStream} {k : Nat}
    (h : service.Accepts 1 k fileStream) :
    (∃ raised, service.Interrupts fileStream raised) ∨ service.Delivers fileStream k ∨
      service.Accepts 1 (k + 1) fileStream := by
  cases hread : fileStream[k]? with
  | none => exact .inr (.inl ⟨h, .inl hread⟩)
  | some answer =>
    cases answer with
    | error raised => exact .inl ⟨raised, k, h, .inl hread⟩
    | ok chunk =>
      by_cases hchunk : chunk = []
      · exact .inr (.inl ⟨h, .inr (hchunk ▸ hread)⟩)
      · cases hpart : service.uploadPart (1 + k) with
        | error raised => exact .inl ⟨raised, k, h, .inr ⟨chunk, hread, hchunk, hpart⟩⟩
        | ok eTag =>
          refine .inr (.inr fun i hi => ?_)
          rcases Nat.lt_succ_iff_lt_or_eq.mp hi with hi | rfl
          · exact h i hi
          · exact ⟨chunk, eTag, hread, hchunk, hpart⟩

theorem interrupts_or_delivers (service : Service) (fileStream : FileStream) :
    (∃ raised, service.Interrupts fileStream raised) ∨ ∃ k, service.Delivers fileStream k := by
  by_contra hneither
  rw [not_or, not_exists] at hneither
  have haccepts : ∀ k, service.Accepts 1 k fileStream := by
    intro k
    induction k with
    | zero => exact fun i hi => absurd hi (Nat.not_lt_zero i)
    | succ k ih =>
      rcases ih.succ with hinterrupts | hdelivers | haccepts
      · exact absurd hinterrupts (not_exists.mpr hneither.1)
      · exact absurd ⟨k, hdelivers⟩ hneither.2
      · exact haccepts
  obtain ⟨chunk, eTag, hread, -⟩ := haccepts (fileStream.length + 1) fileStream.length (by omega)
  rw [List.getElem?_eq_none (Nat.le_refl _)] at hread
  cases hread

end loop

section closing
variable {service : Service} {request : Request} {uploadId : String} {result : Except Raised Unit}

theorem abortAnswer_eq_ok {log : CallLog} (h : ∀ x ∈ log, x.raised = none → Quiet uploadId x) :
    abortAnswer uploadId log = .ok () := by
  rw [abortAnswer, if_neg]
  intro hany
  obtain ⟨x, hx, hcloses⟩ := List.any_eq_true.mp hany
  rw [Bool.and_eq_true, Option.isNone_iff_eq_none] at hcloses
  have hquiet := h x hx hcloses.1
  rw [hquiet.2.1, hquiet.2.2] at hcloses
  exact Bool.false_ne_true hcloses.2

theorem closedOnce_cons {x : Await Call Raised} {log : CallLog} (h : Quiet uploadId x) :
    ClosedOnce uploadId result (x :: log) ↔ ClosedOnce uploadId result log := by
  obtain ⟨hraised, haborts, hcompletes⟩ := h
  have hcount : (x :: log).countP (·.call.aborts uploadId) =
      log.countP (·.call.aborts uploadId) := by
    rw [List.countP_cons, haborts, if_neg Bool.false_ne_true, Nat.add_zero]
  have hcompleted : (∃ y ∈ x :: log, y.call.completes uploadId ∧ y.raised = none) ↔
      ∃ y ∈ log, y.call.completes uploadId ∧ y.raised = none := by
    simp [hcompletes]
  have huntouched : (x :: log).Pairwise
        (fun x y => x.call.aborts uploadId → y.call.uploadId ≠ some uploadId) ↔
      log.Pairwise fun x y => x.call.aborts uploadId → y.call.uploadId ≠ some uploadId := by
    simp [haborts]
  have hinterruption : Log.interruption (x :: log) = Log.interruption log := by
    rw [Log.interruption, List.findSome?_cons, hraised, Log.interruption]
  apply Iff.intro
  · intro h
    have hclosing := h.closing
    rw [hcount, hcompleted] at hclosing
    exact ⟨hclosing, huntouched.mp h.untouched, hinterruption ▸ h.raised⟩
  · intro h
    refine ⟨?_, huntouched.mpr h.untouched, hinterruption ▸ h.raised⟩
    rw [hcount, hcompleted]
    exact h.closing

theorem closedOnce_append {quiet log : CallLog} (h : ∀ x ∈ quiet, Quiet uploadId x) :
    ClosedOnce uploadId result (quiet ++ log) ↔ ClosedOnce uploadId result log := by
  induction quiet with
  | nil => rfl
  | cons x quiet ih =>
    rw [List.cons_append, closedOnce_cons (h x List.mem_cons_self)]
    exact ih fun y hy => h y (List.mem_cons_of_mem _ hy)

def aborted (request : Request) (uploadId : String) (raised : Option Raised) :
    Await Call Raised :=
  ⟨.abortMultipartUpload request.bucket request.storageKey uploadId, raised⟩

theorem aborts_aborted (raised : Option Raised) :
    (aborted request uploadId raised).call.aborts uploadId = true :=
  beq_self_eq_true uploadId

theorem abortAnswer_aborted {log : CallLog} (h : aborted request uploadId none ∈ log) :
    abortAnswer uploadId log = .error (.exception "NoSuchUpload") := by
  rw [abortAnswer, if_pos]
  apply List.any_eq_true.mpr
  refine ⟨_, h, ?_⟩
  rw [aborts_aborted]
  rfl

theorem closedOnce_aborted_put {call : Call} (haborts : call.aborts uploadId = false)
    (hother : call.uploadId = none) :
    ClosedOnce uploadId result [aborted request uploadId none, ⟨call, raisedOf result⟩] where
  closing := .inr (by simp [aborts_aborted, haborts])
  untouched := by simp [haborts, hother]
  raised := by cases result <;> rfl

theorem closedOnce_raised_aborted {call : Call} {raised : Raised}
    (haborts : call.aborts uploadId = false) :
    ClosedOnce uploadId (.error raised) [⟨call, some raised⟩, aborted request uploadId none] where
  closing := .inr (by simp [aborts_aborted, haborts])
  untouched := by simp [haborts]
  raised := rfl

theorem closedOnce_completed {call : Call} (haborts : call.aborts uploadId = false)
    (hcompletes : call.completes uploadId = true) :
    ClosedOnce uploadId (.ok ()) [⟨call, none⟩] where
  closing := .inl ⟨⟨_, List.mem_singleton_self _, hcompletes, rfl⟩, by simp [haborts]⟩
  untouched := List.pairwise_singleton ..
  raised := rfl

theorem not_closedOnce_raised {call : Call} {raised : Raised}
    (haborts : call.aborts uploadId = false) :
    ¬ ClosedOnce uploadId result [⟨call, some raised⟩] := by
  intro h
  simpa [haborts] using h.closing

theorem not_closedOnce_aborted_twice {x : Await Call Raised} {raised : Option Raised} :
    ¬ ClosedOnce uploadId result
      [aborted request uploadId none, x, aborted request uploadId raised] := by
  intro h
  have huntouched := (List.pairwise_cons.mp h.untouched).1 (aborted request uploadId raised)
    (by simp) (aborts_aborted none)
  exact huntouched rfl

end closing

section bodies
variable {service : Service} {request : Request} {uploadId : String} {fileStream : FileStream}

theorem uploadBody_interrupted {raised : Raised} (h : service.Interrupts fileStream raised)
    (log : CallLog) :
    ∃ sent call, (∀ x ∈ sent, Quiet uploadId x) ∧ call.aborts uploadId = false ∧
      Ends (uploadBody service request uploadId fileStream) log (.error raised)
        (sent ++ [⟨call, some raised⟩]) := by
  obtain ⟨sent, call, hquiet, haborts, hrun⟩ := uploadParts_interrupted h log
  exact ⟨sent, call, hquiet, haborts, hrun.bind_error⟩

def putEmpty (request : Request) : Call :=
  .putObject request.bucket request.storageKey request.mimeType []

theorem uploadBody_empty (request : Request) (h : service.Delivers fileStream 0) {log : CallLog}
    (hlog : ∀ x ∈ log, Quiet uploadId x) :
    ∃ sent, (∀ x ∈ sent, Quiet uploadId x) ∧
      Ends (uploadBody service request uploadId fileStream) log service.putObject
        (sent ++ [aborted request uploadId none,
          ⟨putEmpty request, raisedOf service.putObject⟩]) := by
  obtain ⟨sent, uploaded, hquiet, hlength, hrun⟩ := uploadParts_delivered h log
  refine ⟨sent, hquiet, hrun.bind ?_⟩
  obtain rfl := List.length_eq_zero_iff.mp hlength
  have habort : abortAnswer uploadId (log ++ sent) = .ok () := by
    apply abortAnswer_eq_ok
    intro x hx _
    exact (List.mem_append.mp hx).elim (hlog x) (hquiet x)
  apply ends_await_bind habort
  exact ends_await ..

theorem uploadBody_parts {k : Nat} (hk : 0 < k) (h : service.Delivers fileStream k)
    (log : CallLog) :
    ∃ sent call, (∀ x ∈ sent, Quiet uploadId x) ∧ call.aborts uploadId = false ∧
      call.completes uploadId = true ∧
      Ends (uploadBody service request uploadId fileStream) log service.completeMultipartUpload
        (sent ++ [⟨call, raisedOf service.completeMultipartUpload⟩]) := by
  obtain ⟨sent, uploaded, hquiet, hlength, hrun⟩ := uploadParts_delivered h log
  refine ⟨sent, .completeMultipartUpload request.bucket request.storageKey uploadId uploaded,
    hquiet, rfl, beq_self_eq_true uploadId, hrun.bind ?_⟩
  have hparts : uploaded.isEmpty = false := by
    cases uploaded with
    | nil => exact absurd hlength (Nat.ne_of_lt hk)
    | cons part parts => rfl
  rw [finishUpload, hparts, if_neg Bool.false_ne_true]
  exact ends_await ..

end bodies

section runs
variable {service : Service} {request : Request} {uploadId : String} {fileStream : FileStream}
  (hsize : defaultMinChunkSize ≤ request.chunkSize)
  (hcreate : service.createMultipartUpload = .ok uploadId)

def created (request : Request) : Await Call Raised :=
  ⟨.createMultipartUpload request.bucket request.storageKey request.mimeType, none⟩

theorem quiet_created {sent : CallLog} (h : ∀ x ∈ sent, Quiet uploadId x) :
    ∀ x ∈ created request :: sent, Quiet uploadId x := by
  intro x hx
  rcases List.mem_cons.mp hx with rfl | hx
  · exact ⟨rfl, rfl, rfl⟩
  · exact h x hx

def Closes (service : Service) (request : Request) (uploadId : String) (fileStream : FileStream) :
    Prop :=
  ClosedOnce uploadId (uploadStream service request fileStream).outcome.1
    (uploadStream service request fileStream).outcome.2

theorem closes_iff {sent awaits : CallLog} {result : Except Raised Unit}
    (hsent : ∀ x ∈ sent, Quiet uploadId x)
    (h : (uploadStream service request fileStream).outcome =
      (result, created request :: (sent ++ awaits))) :
    Closes service request uploadId fileStream ↔ ClosedOnce uploadId result awaits := by
  rw [Closes, h, ← List.cons_append]
  exact closedOnce_append (quiet_created hsent)

include hsize hcreate

theorem uploadStream_outcome {awaits : CallLog} {result : Except Raised Unit}
    (h : Ends (catching Raised.isException (uploadBody service request uploadId fileStream)
      (fun raised => do
        abortUpload request uploadId
        raise raised)) [created request] result awaits) :
    (uploadStream service request fileStream).outcome = (result, created request :: awaits) := by
  apply Ends.outcome
  rw [uploadStream, if_neg (by omega)]
  exact ends_await_bind hcreate h

theorem uploadStream_returns {awaits : CallLog}
    (h : Ends (uploadBody service request uploadId fileStream) [created request] (.ok ()) awaits) :
    (uploadStream service request fileStream).outcome = (.ok (), created request :: awaits) := by
  apply uploadStream_outcome hsize hcreate
  exact h.catching_ok

theorem uploadStream_cancelled {awaits : CallLog}
    (h : Ends (uploadBody service request uploadId fileStream) [created request]
      (.error .cancelled) awaits) :
    (uploadStream service request fileStream).outcome =
      (.error .cancelled, created request :: awaits) := by
  apply uploadStream_outcome hsize hcreate
  exact h.catching_passed rfl

section caught
variable {awaits : CallLog} {message : String}
  (h : Ends (uploadBody service request uploadId fileStream) [created request]
    (.error (.exception message)) awaits)
include h

theorem uploadStream_caught
    (habort : abortAnswer uploadId (created request :: awaits) = .ok ()) :
    (uploadStream service request fileStream).outcome =
      (.error (.exception message),
        created request :: (awaits ++ [aborted request uploadId none])) := by
  apply uploadStream_outcome hsize hcreate
  apply h.catching_caught rfl
  apply ends_await_bind habort
  exact ends_raise ..

theorem uploadStream_caught_aborted {raised : Raised}
    (habort : abortAnswer uploadId (created request :: awaits) = .error raised) :
    (uploadStream service request fileStream).outcome =
      (.error raised, created request :: (awaits ++ [aborted request uploadId (some raised)])) := by
  apply uploadStream_outcome hsize hcreate
  apply h.catching_caught rfl
  exact ends_await_bind_error habort

end caught

theorem closes_of_raised {sent : CallLog} {call : Call} {message : String}
    (hsent : ∀ x ∈ sent, Quiet uploadId x) (haborts : call.aborts uploadId = false)
    (h : Ends (uploadBody service request uploadId fileStream) [created request]
      (.error (.exception message)) (sent ++ [⟨call, some (.exception message)⟩])) :
    Closes service request uploadId fileStream := by
  have habort : abortAnswer uploadId
      (created request :: (sent ++ [⟨call, some (.exception message)⟩])) = .ok () := by
    apply abortAnswer_eq_ok
    intro x hx hraised
    rw [← List.cons_append] at hx
    rcases List.mem_append.mp hx with hx | hx
    · exact quiet_created hsent x hx
    · rw [List.mem_singleton.mp hx] at hraised
      cases hraised
  have hrun := uploadStream_caught hsize hcreate h habort
  rw [List.append_assoc] at hrun
  exact (closes_iff hsent hrun).mpr (closedOnce_raised_aborted haborts)

theorem not_closes_of_cancelled {sent : CallLog} {call : Call}
    (hsent : ∀ x ∈ sent, Quiet uploadId x) (haborts : call.aborts uploadId = false)
    (h : Ends (uploadBody service request uploadId fileStream) [created request]
      (.error .cancelled) (sent ++ [⟨call, some .cancelled⟩])) :
    ¬ Closes service request uploadId fileStream := by
  have hrun := uploadStream_cancelled hsize hcreate h
  rw [closes_iff hsent hrun]
  exact not_closedOnce_raised haborts

theorem closes_of_interrupts {message : String}
    (h : service.Interrupts fileStream (.exception message)) :
    Closes service request uploadId fileStream := by
  obtain ⟨sent, call, hsent, haborts, hbody⟩ := uploadBody_interrupted h [created request]
  exact closes_of_raised hsize hcreate hsent haborts hbody

theorem not_closes_of_interrupts (h : service.Interrupts fileStream .cancelled) :
    ¬ Closes service request uploadId fileStream := by
  obtain ⟨sent, call, hsent, haborts, hbody⟩ := uploadBody_interrupted h [created request]
  exact not_closes_of_cancelled hsize hcreate hsent haborts hbody

theorem closes_of_parts {k : Nat} (hk : 0 < k) (h : service.Delivers fileStream k)
    (hcomplete : service.completeMultipartUpload ≠ .error .cancelled) :
    Closes service request uploadId fileStream := by
  obtain ⟨sent, call, hsent, haborts, hcompletes, hbody⟩ :=
    uploadBody_parts hk h [created request]
  cases hanswer : service.completeMultipartUpload with
  | ok =>
    rw [hanswer] at hbody
    have hrun := uploadStream_returns hsize hcreate hbody
    exact (closes_iff hsent hrun).mpr (closedOnce_completed haborts hcompletes)
  | error raised =>
    rw [hanswer] at hbody
    cases raised with
    | exception message => exact closes_of_raised hsize hcreate hsent haborts hbody
    | cancelled => exact absurd hanswer hcomplete

theorem not_closes_of_parts {k : Nat} (hk : 0 < k) (h : service.Delivers fileStream k)
    (hcomplete : service.completeMultipartUpload = .error .cancelled) :
    ¬ Closes service request uploadId fileStream := by
  obtain ⟨sent, call, hsent, haborts, -, hbody⟩ := uploadBody_parts hk h [created request]
  rw [hcomplete] at hbody
  exact not_closes_of_cancelled hsize hcreate hsent haborts hbody

/-- An empty stream, whose upload has been aborted before the object is put. -/
theorem closes_of_empty (h : service.Delivers fileStream 0)
    (hput : ∀ message, service.putObject ≠ .error (.exception message)) :
    Closes service request uploadId fileStream := by
  have hcreated : ∀ x ∈ [created request], Quiet uploadId x :=
    quiet_created fun x hx => absurd hx List.not_mem_nil
  obtain ⟨sent, hsent, hbody⟩ := uploadBody_empty request h hcreated
  have hclosed : ClosedOnce uploadId service.putObject
      [aborted request uploadId none, ⟨putEmpty request, raisedOf service.putObject⟩] :=
    closedOnce_aborted_put rfl rfl
  cases hanswer : service.putObject with
  | ok =>
    rw [hanswer] at hbody hclosed
    have hrun := uploadStream_returns hsize hcreate hbody
    exact (closes_iff hsent hrun).mpr hclosed
  | error raised =>
    rw [hanswer] at hbody hclosed
    cases raised with
    | exception message => exact absurd hanswer (hput message)
    | cancelled =>
      have hrun := uploadStream_cancelled hsize hcreate hbody
      exact (closes_iff hsent hrun).mpr hclosed

/-- The handler aborts what has been aborted. -/
theorem not_closes_of_empty {message : String} (h : service.Delivers fileStream 0)
    (hput : service.putObject = .error (.exception message)) :
    ¬ Closes service request uploadId fileStream := by
  have hcreated : ∀ x ∈ [created request], Quiet uploadId x :=
    quiet_created fun x hx => absurd hx List.not_mem_nil
  obtain ⟨sent, hsent, hbody⟩ := uploadBody_empty request h hcreated
  rw [hput] at hbody
  have haborted : aborted request uploadId none ∈ created request :: (sent ++
      [aborted request uploadId none, ⟨putEmpty request, some (.exception message)⟩]) := by simp
  have hrun :=
    uploadStream_caught_aborted hsize hcreate hbody (abortAnswer_aborted haborted)
  rw [List.append_assoc] at hrun
  rw [closes_iff hsent hrun]
  exact not_closedOnce_aborted_twice

omit hsize hcreate

/-- The upload is closed once in just the runs in which no cancellation meets it open, and no
exception of `put_object` follows its abort. -/
theorem upload_closed_once_iff (hsize : defaultMinChunkSize ≤ request.chunkSize)
    (hcreate : service.createMultipartUpload = .ok uploadId) :
    Closes service request uploadId fileStream ↔ service.Spares fileStream := by
  apply Iff.intro
  · intro hcloses
    exact {
      parts := fun h => not_closes_of_interrupts hsize hcreate h hcloses
      complete := fun k hk h hcomplete =>
        not_closes_of_parts hsize hcreate hk h hcomplete hcloses
      put := fun h message hput => not_closes_of_empty hsize hcreate h hput hcloses }
  · intro hspares
    rcases interrupts_or_delivers service fileStream with ⟨raised, h⟩ | ⟨k, h⟩
    · cases raised with
      | exception message => exact closes_of_interrupts hsize hcreate h
      | cancelled => exact absurd h hspares.parts
    · rcases Nat.eq_zero_or_pos k with rfl | hk
      · exact closes_of_empty hsize hcreate h (hspares.put h)
      · exact closes_of_parts hsize hcreate hk h (hspares.complete k hk h)

end runs

instance (service : Service) (request : Request) (uploadId : String) (fileStream : FileStream) :
    Decidable (Closes service request uploadId fileStream) :=
  inferInstanceAs (Decidable (ClosedOnce ..))

def twoParts : Service where
  createMultipartUpload := .ok "upload"
  uploadPart := fun _ => .ok "tag"
  completeMultipartUpload := .ok ()
  putObject := .error (.exception "InternalError")

def document : Request where
  bucket := "documents"
  storageKey := "report.pdf"
  mimeType := "application/pdf"

theorem upload_closed_once_iff_document : twoParts.Spares [.ok [37, 80], .ok [68, 70]] := by
  have hcloses : Closes twoParts document "upload" [.ok [37, 80], .ok [68, 70]] := by
    decide +kernel
  exact (upload_closed_once_iff (by decide) rfl).mp hcloses

/-- An empty document: the upload is aborted, no object is put, and the upload is aborted again.
What leaves is the exception of that. -/
theorem document_aborted_twice :
    defaultMinChunkSize ≤ document.chunkSize ∧ twoParts.createMultipartUpload = .ok "upload" ∧
      (uploadStream twoParts document []).outcome.1 = .error (.exception "NoSuchUpload") ∧
      ¬ Closes twoParts document "upload" [] := by
  decide +kernel

end DddFramework.S3
