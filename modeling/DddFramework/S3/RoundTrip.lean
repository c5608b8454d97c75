import DddFramework.S3.DownloadStream
import Mathlib.Logic.Function.Basic

/-! What `upload_stream` has uploaded, `download_stream` gives back, however the bytes were cut
into reads, parts and chunks. -/
namespace DddFramework.S3
open Library Task

/-- The parts of open uploads by their numbers, and the objects by their buckets and keys. -/
structure Store where
  parts : String → Nat → Option Bytes
  objects : String → String → Option Bytes

namespace Store

def setParts (s : Store) (uploadId : String) (parts : Nat → Option Bytes) : Store :=
  { s with parts := Function.update s.parts uploadId parts }

def setObject (s : Store) (bucket key : String) (object : Bytes) : Store :=
  { s with
    objects := Function.update s.objects bucket
      (Function.update (s.objects bucket) key (some object)) }

def assemble (s : Store) (uploadId : String) (parts : List Part) : Bytes :=
  parts.flatMap fun part => (s.parts uploadId part.partNumber).getD []

def called (s : Store) : Call → Store
  | .createMultipartUpload .. => s
  | .read _ => s
  | .uploadPart _ _ uploadId partNumber body =>
    s.setParts uploadId (Function.update (s.parts uploadId) partNumber (some body))
  | .abortMultipartUpload _ _ uploadId => s.setParts uploadId fun _ => none
  | .putObject bucket key _ body => s.setObject bucket key body
  | .completeMultipartUpload bucket key uploadId parts =>
    (s.setParts uploadId fun _ => none).setObject bucket key (s.assemble uploadId parts)

/-- A call that has raised has done nothing. -/
def awaited (s : Store) (x : Await Call Raised) : Store :=
  if x.raised.isSome then s else s.called x.call

def after (s : Store) (log : CallLog) : Store := log.foldl awaited s

theorem after_append (s : Store) (log awaits : CallLog) :
    s.after (log ++ awaits) = (s.after log).after awaits :=
  List.foldl_append

@[simp] theorem setObject_self (s : Store) (bucket key : String) (object : Bytes) :
    (s.setObject bucket key object).objects bucket key = some object := by
  simp [setObject]

end Store

def contentsOf : FileStream → Bytes
  | .ok chunk :: stream => if chunk.isEmpty then [] else chunk ++ contentsOf stream
  | _ => []

section upload
variable {service : Service} {request : Request} {uploadId : String} {log after : CallLog}

theorem assemble_uploadPart {s : Store} {parts : List Part} {partNumber : Nat}
    (h : ∀ part ∈ parts, part.partNumber < partNumber) (bucket key eTag : String) (body : Bytes) :
    (s.called (.uploadPart bucket key uploadId partNumber body)).assemble uploadId
        (parts ++ [⟨eTag, partNumber⟩]) = s.assemble uploadId parts ++ body := by
  have hearlier : (s.called (.uploadPart bucket key uploadId partNumber body)).assemble uploadId
      parts = s.assemble uploadId parts := by
    apply List.flatMap_congr
    intro part hpart
    have hne : part.partNumber ≠ partNumber := Nat.ne_of_lt (h part hpart)
    simp [Store.called, Store.setParts, hne]
  unfold Store.assemble at hearlier ⊢
  rw [List.flatMap_append, hearlier]
  simp [Store.called, Store.setParts]

theorem uploadParts_assembles {fileStream : FileStream} {partNumber : Nat}
    {parts uploaded : List Part} (hparts : ∀ part ∈ parts, part.partNumber < partNumber)
    (h : uploadParts service request uploadId partNumber parts fileStream log =
      (.ok uploaded, after)) (s : Store) :
    (s.after after).assemble uploadId uploaded =
      (s.after log).assemble uploadId parts ++ contentsOf fileStream := by
  induction fileStream generalizing partNumber parts log with
  | nil =>
    rw [uploadParts] at h
    obtain ⟨chunk, middle, hread, hend⟩ := bind_eq_ok h
    obtain ⟨-, rfl⟩ := await_eq_ok hread
    obtain ⟨rfl, rfl⟩ := pure_eq_ok hend
    rw [Store.after_append, contentsOf, List.append_nil]
    · rfl
    · simp
  | cons answer stream ih =>
    rw [uploadParts] at h
    obtain ⟨chunk, middle, hread, hrest⟩ := bind_eq_ok h
    obtain ⟨rfl, rfl⟩ := await_eq_ok hread
    by_cases hchunk : chunk.isEmpty
    · rw [if_pos hchunk] at hrest
      obtain ⟨rfl, rfl⟩ := pure_eq_ok hrest
      rw [Store.after_append, contentsOf, if_pos hchunk, List.append_nil]
      rfl
    · rw [if_neg hchunk] at hrest
      obtain ⟨eTag, uploading, hupload, hmore⟩ := bind_eq_ok hrest
      obtain ⟨-, rfl⟩ := await_eq_ok hupload
      rw [ih ?_ hmore, contentsOf, if_neg hchunk, ← List.append_assoc]
      · rw [Store.after_append, Store.after_append]
        exact congrArg (· ++ contentsOf stream)
          (assemble_uploadPart hparts request.bucket request.storageKey eTag chunk)
      · intro part hpart
        rcases List.mem_append.mp hpart with hpart | hpart
        · exact Nat.lt_succ_of_lt (hparts part hpart)
        · rw [List.mem_singleton.mp hpart]
          exact Nat.lt_succ_self _

theorem uploadBody_stores {fileStream : FileStream}
    (h : uploadBody service request uploadId fileStream log = (.ok (), after)) (s : Store) :
    (s.after after).objects request.bucket request.storageKey = some (contentsOf fileStream) := by
  obtain ⟨uploaded, middle, hparts, hfinish⟩ := bind_eq_ok h
  have hassembled := uploadParts_assembles (by simp) hparts s
  unfold finishUpload at hfinish
  by_cases hempty : uploaded = []
  · rw [hempty] at hfinish hassembled
    have hcontents : contentsOf fileStream = [] := by
      simpa [Store.assemble] using hassembled.symm
    obtain ⟨_, aborted, habort, hput⟩ := bind_eq_ok hfinish
    obtain ⟨-, rfl⟩ := await_eq_ok hput
    rw [Store.after_append, hcontents]
    exact Store.setObject_self ..
  · rw [if_neg (by simpa using hempty)] at hfinish
    obtain ⟨-, rfl⟩ := await_eq_ok hfinish
    rw [Store.after_append]
    refine (Store.setObject_self ..).trans (congrArg some ?_)
    simpa [Store.assemble] using hassembled

theorem uploadStream_stores {fileStream : FileStream}
    (h : (uploadStream service request fileStream).outcome = (.ok (), log)) (s : Store) :
    (s.after log).objects request.bucket request.storageKey = some (contentsOf fileStream) := by
  rw [outcome, uploadStream] at h
  split at h
  · cases h
  · obtain ⟨uploadId, middle, -, hrest⟩ := bind_eq_ok h
    rcases catching_eq_ok hrest with hbody | ⟨raised, interrupted, -, hhandler⟩
    · exact uploadBody_stores hbody s
    · -- the handler raises again what it has caught
      obtain ⟨_, _, -, hraise⟩ := bind_eq_ok hhandler
      cases hraise

end upload
def Request.download (request : Request) (chunkSize : Int) (s : Store) : Download where
  bucket := request.bucket
  storageKey := request.storageKey
  chunkSize := chunkSize
  object := s.objects request.bucket request.storageKey

/-- A run of a consumer gives a beginning of the contents, all of them where the generator comes
to its end, and that it does in a bounded number of calls. With a chunk size of zero it gives
nothing. -/
structure GivesBack (contents : Bytes) (download : Download) : Prop where
  beginning : ∀ calls, yieldedBytes (download.machine.emitted .unstarted calls) <+: contents
  whole : ∀ calls, .ended .exhausted ∈ download.machine.emitted .unstarted calls →
    yieldedBytes (download.machine.emitted .unstarted calls) =
      if download.chunkSize = 0 then [] else contents
  ends : download.chunkSize ≠ 0 → ∀ asked : List Answers, (∀ answers ∈ asked, answers.Return) →
    contents.length < asked.length →
      .ended .exhausted ∈ download.machine.emitted .unstarted (asked.map .anext)

theorem yieldedBytes_eq_nil {effects : List DownloadEffect}
    (h : ∀ chunk, .yielded chunk ∉ effects) : yieldedBytes effects = [] := by
  apply List.flatMap_eq_nil_iff.mpr
  intro effect heffect
  cases effect with
  | yielded chunk => exact absurd heffect (h chunk)
  | _ => rfl

theorem givesBack_object {download : Download} {object : Bytes}
    (h : download.object = some object) : GivesBack object download where
  beginning calls := by
    simpa [h] using (download_streams download calls).beginning
  whole calls hended := by
    have hstreams := download_streams download calls
    by_cases hsize : download.chunkSize = 0
    · rw [if_pos hsize]
      apply yieldedBytes_eq_nil
      intro chunk hchunk
      obtain ⟨hnonempty, hlength⟩ := hstreams.sized chunk hchunk
      have hpos := List.length_pos_of_ne_nil hnonempty
      omega
    · rw [if_neg hsize]
      exact Option.some.inj ((hstreams.whole hsize hended).symm.trans h)
  ends hsize _ hreturn hlong := download_exhausted h hsize hreturn hlong

/-- Where an upload has returned, a download of the same key gives back what its stream gave,
however the calls of either were cut. -/
theorem upload_download {service : Service} {request : Request} {fileStream : FileStream}
    {log : CallLog} (h : (uploadStream service request fileStream).outcome = (.ok (), log))
    (s : Store) (chunkSize : Int) :
    GivesBack (contentsOf fileStream) (request.download chunkSize (s.after log)) :=
  givesBack_object (uploadStream_stores h s)

theorem upload_download_document :
    GivesBack [37, 80, 68, 70] (document.download 1 (Store.after ⟨fun _ _ => none, fun _ _ => none⟩
      (uploadStream twoParts document [.ok [37, 80], .ok [68, 70]]).outcome.2)) := by
  have hreturned : (uploadStream twoParts document [.ok [37, 80], .ok [68, 70]]).outcome =
      (.ok (), (uploadStream twoParts document [.ok [37, 80], .ok [68, 70]]).outcome.2) := by
    decide +kernel
  exact upload_download hreturned ⟨fun _ _ => none, fun _ _ => none⟩ 1

end DddFramework.S3
