import DddFramework.S3.UploadStream

/-! The parts that `S3Client.upload_stream` makes of the reads of a stream, where no call fails.
S3 takes a part that is not the last one only from 5 MiB on. -/
namespace DddFramework.S3
open Library Task

/-- A stream by its reads up to its end, which give at least a byte and not more than asked. -/
structure AsyncReadable (size : Int) where
  chunks : List Bytes
  bounded : ∀ chunk ∈ chunks, chunk ≠ [] ∧ chunk.length ≤ size

namespace AsyncReadable
variable {size : Int}

def contents (stream : AsyncReadable size) : Bytes := stream.chunks.flatten

def fileStream (stream : AsyncReadable size) : FileStream := stream.chunks.map .ok

end AsyncReadable

def faultless (uploadId : String) (eTag : Nat → String) : Service where
  createMultipartUpload := .ok uploadId
  uploadPart := fun partNumber => .ok (eTag partNumber)
  completeMultipartUpload := .ok ()
  putObject := .ok ()

def Call.body : Call → Option Bytes
  | .uploadPart _ _ _ _ body => some body
  | _ => none

def Call.stores : Call → Bool
  | .putObject .. => true
  | .completeMultipartUpload .. => true
  | _ => false

def bodies (log : CallLog) : List Bytes := log.filterMap (·.call.body)

section parts
variable (request : Request) (uploadId : String) (eTag : Nat → String)

def uploadCalls (partNumber : Nat) (chunks : List Bytes) : List Call :=
  (chunks.zipIdx partNumber).map fun x =>
    .uploadPart request.bucket request.storageKey uploadId x.2 x.1

def partsOf (partNumber : Nat) (chunks : List Bytes) : List Part :=
  (chunks.zipIdx partNumber).map fun x => ⟨eTag x.2, x.2⟩

/-- The call that makes an object of the parts. No parts cannot be completed, so that an object
without bytes takes their place. -/
def storeCall (chunks : List Bytes) : Call :=
  if chunks = [] then
    .putObject request.bucket request.storageKey request.mimeType []
  else
    .completeMultipartUpload request.bucket request.storageKey uploadId (partsOf eTag 1 chunks)

/-- The parts have the numbers from 1 on, give the whole stream, are completed in their order, and
are large enough for S3. -/
structure UploadsWhole (contents : Bytes) (result : Except Raised Unit) (log : CallLog) :
    Prop where
  returned : result = .ok ()
  numbered : (log.map Await.call).filter (·.body.isSome) =
    uploadCalls request uploadId 1 (bodies log)
  lossless : (bodies log).flatten = contents
  stored : (log.map Await.call).filter Call.stores = [storeCall request uploadId eTag (bodies log)]
  large : ∀ body ∈ (bodies log).dropLast, defaultMinChunkSize ≤ body.length

instance (contents : Bytes) (result : Except Raised Unit) (log : CallLog) :
    Decidable (UploadsWhole request uploadId eTag contents result log) :=
  decidable_of_iff
    (result = .ok () ∧
      (log.map Await.call).filter (·.body.isSome) = uploadCalls request uploadId 1 (bodies log) ∧
      (bodies log).flatten = contents ∧
      (log.map Await.call).filter Call.stores = [storeCall request uploadId eTag (bodies log)] ∧
      ∀ body ∈ (bodies log).dropLast, defaultMinChunkSize ≤ body.length)
    ⟨fun h => ⟨h.1, h.2.1, h.2.2.1, h.2.2.2.1, h.2.2.2.2⟩,
      fun h => ⟨h.returned, h.numbered, h.lossless, h.stored, h.large⟩⟩

def Uploads (stream : AsyncReadable request.chunkSize) : Prop :=
  UploadsWhole request uploadId eTag stream.contents
    (uploadStream (faultless uploadId eTag) request stream.fileStream).outcome.1
    (uploadStream (faultless uploadId eTag) request stream.fileStream).outcome.2

instance (stream : AsyncReadable request.chunkSize) :
    Decidable (Uploads request uploadId eTag stream) :=
  inferInstanceAs (Decidable (UploadsWhole ..))

def uploadAwaits (partNumber : Nat) : List Bytes → CallLog
  | [] => [⟨.read request.chunkSize, none⟩]
  | chunk :: chunks =>
    taken request uploadId partNumber chunk ++ uploadAwaits (partNumber + 1) chunks

variable {request uploadId eTag}

theorem uploadParts_chunks {chunks : List Bytes} (hchunks : ∀ chunk ∈ chunks, chunk ≠ [])
    (partNumber : Nat) (parts : List Part) (log : CallLog) :
    Ends (uploadParts (faultless uploadId eTag) request uploadId partNumber parts
        (chunks.map .ok)) log
      (.ok (parts ++ partsOf eTag partNumber chunks))
      (uploadAwaits request uploadId partNumber chunks) := by
  induction chunks generalizing partNumber parts log with
  | nil =>
    rw [List.map_nil, uploadParts]
    apply ends_await_bind rfl
    simpa [partsOf] using ends_pure parts (log ++ [⟨.read request.chunkSize, none⟩])
  | cons chunk chunks ih =>
    obtain ⟨hchunk, hrest⟩ := List.forall_mem_cons.mp hchunks
    have hparts : parts ++ partsOf eTag partNumber (chunk :: chunks) =
        parts ++ [⟨eTag partNumber, partNumber⟩] ++ partsOf eTag (partNumber + 1) chunks := by
      simp [partsOf]
    rw [List.map_cons, uploadAwaits, hparts]
    apply uploadParts_cons hchunk rfl
    exact ih hrest ..

theorem bodies_uploadAwaits (request : Request) (uploadId : String)
    (partNumber : Nat) (chunks : List Bytes) :
    bodies (uploadAwaits request uploadId partNumber chunks) = chunks := by
  induction chunks generalizing partNumber with
  | nil => rfl
  | cons chunk chunks ih =>
    have hrest := ih (partNumber + 1)
    rw [bodies] at hrest
    rw [bodies, uploadAwaits, List.filterMap_append, hrest]
    rfl

theorem uploadCalls_uploadAwaits (request : Request) (uploadId : String)
    (partNumber : Nat) (chunks : List Bytes) :
    ((uploadAwaits request uploadId partNumber chunks).map Await.call).filter (·.body.isSome) =
      uploadCalls request uploadId partNumber chunks := by
  induction chunks generalizing partNumber with
  | nil => rfl
  | cons chunk chunks ih =>
    rw [uploadAwaits, List.map_append, List.filter_append, ih, uploadCalls, uploadCalls,
      List.zipIdx_cons, List.map_cons]
    rfl

theorem stores_uploadAwaits (request : Request) (uploadId : String)
    (partNumber : Nat) (chunks : List Bytes) :
    ((uploadAwaits request uploadId partNumber chunks).map Await.call).filter Call.stores = [] := by
  induction chunks generalizing partNumber with
  | nil => rfl
  | cons chunk chunks ih =>
    rw [uploadAwaits, List.map_append, List.filter_append, ih]
    rfl

def storeAwaits (request : Request) (uploadId : String) (eTag : Nat → String)
    (chunks : List Bytes) : CallLog :=
  if chunks = [] then
    [aborted request uploadId none, ⟨storeCall request uploadId eTag chunks, none⟩]
  else [⟨storeCall request uploadId eTag chunks, none⟩]

theorem bodies_storeAwaits (request : Request) (uploadId : String) (eTag : Nat → String)
    (chunks : List Bytes) :
    bodies (storeAwaits request uploadId eTag chunks) = [] := by
  by_cases hchunks : chunks = [] <;> simp [storeAwaits, storeCall, hchunks, bodies, aborted,
    Call.body]

theorem uploadCalls_storeAwaits (chunks : List Bytes) :
    ((storeAwaits request uploadId eTag chunks).map Await.call).filter (·.body.isSome) = [] := by
  by_cases hchunks : chunks = [] <;> simp [storeAwaits, storeCall, hchunks, aborted, Call.body]

theorem stores_storeAwaits (chunks : List Bytes) :
    ((storeAwaits request uploadId eTag chunks).map Await.call).filter Call.stores =
      [storeCall request uploadId eTag chunks] := by
  by_cases hchunks : chunks = [] <;> simp [storeAwaits, storeCall, hchunks, aborted, Call.stores]

theorem quiet_uploadAwaits (request : Request) (uploadId : String)
    (partNumber : Nat) (chunks : List Bytes) :
    ∀ x ∈ uploadAwaits request uploadId partNumber chunks, Quiet uploadId x := by
  induction chunks generalizing partNumber with
  | nil => simp [uploadAwaits, Quiet, Call.aborts, Call.completes]
  | cons chunk chunks ih =>
    intro x hx
    exact (List.mem_append.mp hx).elim quiet_of_mem_taken (ih _ x)

theorem finishUpload_chunks {chunks : List Bytes} {log : CallLog}
    (hlog : ∀ x ∈ log, Quiet uploadId x) :
    Ends (finishUpload (faultless uploadId eTag) request uploadId (partsOf eTag 1 chunks)) log
      (.ok ()) (storeAwaits request uploadId eTag chunks) := by
  cases chunks with
  | nil =>
    have habort : abortAnswer uploadId log = .ok () := abortAnswer_eq_ok fun x hx _ => hlog x hx
    apply ends_await_bind habort
    exact ends_await ..
  | cons chunk chunks => exact ends_await ..

def runAwaits (request : Request) (uploadId : String) (eTag : Nat → String)
    (chunks : List Bytes) : CallLog :=
  created request ::
    (uploadAwaits request uploadId 1 chunks ++ storeAwaits request uploadId eTag chunks)

theorem bodies_runAwaits (chunks : List Bytes) :
    bodies (runAwaits request uploadId eTag chunks) = chunks := by
  have hsent := bodies_uploadAwaits request uploadId 1 chunks
  have hstored := bodies_storeAwaits request uploadId eTag chunks
  rw [bodies] at hsent hstored
  rw [bodies, runAwaits, List.filterMap_cons_none rfl, List.filterMap_append, hsent, hstored,
    List.append_nil]

theorem uploadCalls_runAwaits (chunks : List Bytes) :
    ((runAwaits request uploadId eTag chunks).map Await.call).filter (·.body.isSome) =
      uploadCalls request uploadId 1 chunks := by
  rw [runAwaits, List.map_cons, List.filter_cons_of_neg Bool.false_ne_true, List.map_append,
    List.filter_append, uploadCalls_uploadAwaits, uploadCalls_storeAwaits, List.append_nil]

theorem stores_runAwaits (chunks : List Bytes) :
    ((runAwaits request uploadId eTag chunks).map Await.call).filter Call.stores =
      [storeCall request uploadId eTag chunks] := by
  rw [runAwaits, List.map_cons, List.filter_cons_of_neg Bool.false_ne_true, List.map_append,
    List.filter_append, stores_uploadAwaits, stores_storeAwaits, List.nil_append]

theorem uploadStream_chunks (hsize : defaultMinChunkSize ≤ request.chunkSize)
    (stream : AsyncReadable request.chunkSize) :
    (uploadStream (faultless uploadId eTag) request stream.fileStream).outcome =
      (.ok (), runAwaits request uploadId eTag stream.chunks) := by
  apply uploadStream_returns hsize rfl
  have hchunks : ∀ chunk ∈ stream.chunks, chunk ≠ [] :=
    fun chunk hchunk => (stream.bounded chunk hchunk).1
  apply (uploadParts_chunks hchunks 1 [] [created request]).bind
  exact finishUpload_chunks (quiet_created (quiet_uploadAwaits request uploadId 1 stream.chunks))

/-- A run without failures is valid where each read but the last gives 5 MiB. The check of
`chunk_size` bounds only what a read asks for. -/
theorem uploads_iff (hsize : defaultMinChunkSize ≤ request.chunkSize)
    (stream : AsyncReadable request.chunkSize) :
    Uploads request uploadId eTag stream ↔
      ∀ chunk ∈ stream.chunks.dropLast, defaultMinChunkSize ≤ chunk.length := by
  rw [Uploads, uploadStream_chunks hsize]
  apply Iff.intro
  · intro huploads
    have hlarge := huploads.large
    rwa [bodies_runAwaits] at hlarge
  · intro hlarge
    exact {
      returned := rfl
      numbered := by rw [bodies_runAwaits, uploadCalls_runAwaits]
      lossless := by
        rw [bodies_runAwaits]
        rfl
      stored := by rw [bodies_runAwaits, stores_runAwaits]
      large := by rwa [bodies_runAwaits] }

end parts

def oneRead : AsyncReadable document.chunkSize where
  chunks := [[37, 80, 68, 70]]
  bounded := by decide

theorem uploads_iff_oneRead : Uploads document "upload" toString oneRead :=
  (uploads_iff (by decide) oneRead).mpr (by decide)

def shortReads : AsyncReadable document.chunkSize where
  chunks := [[37, 80], [68, 70]]
  bounded := by decide

theorem shortReads_small_part :
    defaultMinChunkSize ≤ document.chunkSize ∧
      bodies (uploadStream (faultless "upload" toString) document shortReads.fileStream).outcome.2 =
        [[37, 80], [68, 70]] ∧
      ¬ Uploads document "upload" toString shortReads := by
  decide +kernel

end DddFramework.S3
