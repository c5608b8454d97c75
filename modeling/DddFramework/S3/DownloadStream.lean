import DddFramework.Library.Machine
import DddFramework.S3.UploadStream

/-! `S3Client.download_stream`, an asynchronous generator. Its consumer asks for chunks, throws
an exception in or closes it, at any point, and any call that it awaits may raise. The body
and the client are released once, in that order, and what has been yielded is a beginning of
the object. -/
namespace DddFramework.S3
open Library

/-- `StreamingBody.read`: the chunk, and what is left. A positive size gives what has arrived,
at least a byte before the end; a negative one gives all. -/
def readBody (size : Int) (arrived : Nat) (rest : Bytes) : Bytes × Bytes :=
  let count := if size < 0 then rest.length else min size.toNat (max arrived 1)
  (rest.take count, rest.drop count)

/-- How the calls end that the generator makes until its consumer has an answer. A read says
how much of the object has arrived. -/
structure Answers where
  enter : Option Raised := none
  getObject : Option Raised := none
  read : Except Raised Nat := .ok 1
  closeBody : Option Raised := none
  exitClient : Option Raised := none

inductive ConsumerCall where
  | anext (answers : Answers)
  | athrow (exception : Raised) (answers : Answers)
  | aclose (answers : Answers)

inductive Ending where
  | exhausted
  | closed
  | raised (exception : Raised)
deriving DecidableEq

/-- An exception of a `finally` block takes the place of what led there. -/
def Ending.replaced (ending : Ending) : Option Raised → Ending
  | none => ending
  | some exception => .raised exception

inductive DownloadEffect where
  | enter (exception : Option Raised)
  | getObject (bucket key : String) (exception : Option Raised)
  | read (size : Int) (answer : Except Raised Bytes)
  | yielded (chunk : Bytes)
  | closeBody
  | exitClient
  | ended (ending : Ending)

/-- The generator between two calls of its consumer; at its `yield` the body has a rest. -/
inductive Generator where
  | unstarted
  | suspended (rest : Bytes)
  | finished
deriving DecidableEq

structure Download where
  bucket : String
  storageKey : String
  chunkSize : Int := defaultMinChunkSize
  object : Option Bytes

def closeStack (answers : Answers) (ending : Ending) : List DownloadEffect :=
  [.exitClient, .ended (ending.replaced answers.exitClient)]

def release (answers : Answers) (ending : Ending) : List DownloadEffect :=
  .closeBody :: closeStack answers (ending.replaced answers.closeBody)

namespace Download
variable (download : Download)

def getObject (answers : Answers) : Except Raised Bytes :=
  match answers.getObject, download.object with
  | some exception, _ => .error exception
  | none, none => .error (.exception "NoSuchKey")
  | none, some object => .ok object

def readOn (answers : Answers) (rest : Bytes) : Generator × List DownloadEffect :=
  match answers.read with
  | .error exception =>
    (.finished, .read download.chunkSize (.error exception) ::
      release answers (.raised exception))
  | .ok arrived =>
    let (chunk, rest) := readBody download.chunkSize arrived rest
    if chunk.isEmpty then
      (.finished, .read download.chunkSize (.ok []) :: release answers .exhausted)
    else (.suspended rest, [.read download.chunkSize (.ok chunk), .yielded chunk])

def start (answers : Answers) : Generator × List DownloadEffect :=
  match answers.enter with
  | some exception => (.finished, [.enter (some exception), .ended (.raised exception)])
  | none =>
    match download.getObject answers with
    | .error exception =>
      (.finished, .enter none :: .getObject download.bucket download.storageKey (some exception) ::
        closeStack answers (.raised exception))
    | .ok object =>
      let (generator, effects) := download.readOn answers object
      (generator, .enter none :: .getObject download.bucket download.storageKey none :: effects)

def step : Generator → ConsumerCall → Generator × List DownloadEffect
  | .unstarted, .anext answers => download.start answers
  | .unstarted, .athrow exception _ => (.finished, [.ended (.raised exception)])
  | .unstarted, .aclose _ => (.finished, [.ended .closed])
  | .suspended rest, .anext answers => download.readOn answers rest
  | .suspended _, .athrow exception answers => (.finished, release answers (.raised exception))
  | .suspended _, .aclose answers => (.finished, release answers .closed)
  | .finished, _ => (.finished, [])

def machine : Machine Generator ConsumerCall DownloadEffect where
  init := .unstarted
  step := download.step

end Download

/-! What the generator holds, as its calls say. -/

inductive Held where
  | nothing
  | client
  | body
  | closing
  | released
deriving DecidableEq

/-- A call where its resource is held; none where it may not be made. -/
def Held.after : Held → DownloadEffect → Option Held
  | .nothing, .enter none => some .client
  | .nothing, .enter (some _) => some .released
  | .nothing, .ended _ => some .released
  | .client, .getObject _ _ none => some .body
  | .client, .getObject _ _ (some _) => some .closing
  | .body, .read _ _ => some .body
  | .body, .yielded _ => some .body
  | .body, .closeBody => some .closing
  | .closing, .exitClient => some .released
  | .released, .ended _ => some .released
  | _, _ => none

def Generator.held : Generator → Held
  | .unstarted => .nothing
  | .suspended _ => .body
  | .finished => .released

def DownloadEffect.chunk : DownloadEffect → Bytes
  | .yielded chunk => chunk
  | _ => []

def yieldedBytes (effects : List DownloadEffect) : Bytes := effects.flatMap DownloadEffect.chunk

/-- The calls are made in the order in which the resources are held: at a `yield` the body is
open, and once the generator has ended nothing is held any more. What has been yielded is a
beginning of the object in chunks no longer than was asked for, and all of it where the
generator comes to its last statement, unless it asks for no bytes. -/
structure Streams (download : Download) (generator : Generator) (effects : List DownloadEffect) :
    Prop where
  held : effects.foldlM Held.after .nothing = some generator.held
  beginning : yieldedBytes effects <+: download.object.getD []
  whole : download.chunkSize ≠ 0 → .ended .exhausted ∈ effects →
    download.object = some (yieldedBytes effects)
  sized : ∀ chunk, .yielded chunk ∈ effects →
    chunk ≠ [] ∧ (0 ≤ download.chunkSize → chunk.length ≤ download.chunkSize)

section reads
variable {size : Int} {arrived : Nat} {rest : Bytes}

theorem readBody_append :
    (readBody size arrived rest).1 ++ (readBody size arrived rest).2 = rest :=
  List.take_append_drop ..

theorem rest_eq_nil (hsize : size ≠ 0) (h : (readBody size arrived rest).1 = []) : rest = [] := by
  unfold readBody at h
  rcases List.take_eq_nil_iff.mp h with hcount | hrest
  · split at hcount
    · exact List.eq_nil_of_length_eq_zero hcount
    · omega
  · exact hrest

theorem readBody_length (hsize : 0 ≤ size) : (readBody size arrived rest).1.length ≤ size := by
  unfold readBody
  rw [if_neg (by omega), List.length_take]
  omega

end reads

section steps
variable {download : Download} {effects : List DownloadEffect} {answers : Answers}
  {rest : Bytes}

@[simp] theorem yieldedBytes_append (effects more : List DownloadEffect) :
    yieldedBytes (effects ++ more) = yieldedBytes effects ++ yieldedBytes more :=
  List.flatMap_append

theorem yieldedBytes_chunk (size : Int) (chunk : Bytes) :
    yieldedBytes [.read size (.ok chunk), .yielded chunk] = chunk := List.append_nil chunk

@[simp] theorem yieldedBytes_release (answers : Answers) (ending : Ending) :
    yieldedBytes (release answers ending) = [] := rfl

@[simp] theorem yieldedBytes_closeStack (answers : Answers) (ending : Ending) :
    yieldedBytes (closeStack answers ending) = [] := rfl

theorem Ending.replaced_eq_exhausted {ending : Ending} {exception : Option Raised}
    (h : ending.replaced exception = .exhausted) : ending = .exhausted := by
  cases exception with
  | none => exact h
  | some => cases h

theorem exhausted_mem_closeStack {ending : Ending}
    (h : .ended .exhausted ∈ closeStack answers ending) : ending = .exhausted := by
  simp only [closeStack, List.mem_cons, reduceCtorEq, DownloadEffect.ended.injEq, List.not_mem_nil,
    or_false, false_or] at h
  exact Ending.replaced_eq_exhausted h.symm

theorem exhausted_mem_release {ending : Ending}
    (h : .ended .exhausted ∈ release answers ending) : ending = .exhausted := by
  have hstack := (List.mem_cons.mp h).resolve_left nofun
  exact Ending.replaced_eq_exhausted (exhausted_mem_closeStack hstack)

/-- While the generator can go on: nothing has ended, and the rest of the object is still to
come. -/
structure Suspended (download : Download) (rest : Bytes) (effects : List DownloadEffect) :
    Prop where
  held : effects.foldlM Held.after .nothing = some .body
  object : download.object = some (yieldedBytes effects ++ rest)
  running : ∀ ending, .ended ending ∉ effects
  sized : ∀ chunk, .yielded chunk ∈ effects →
    chunk ≠ [] ∧ (0 ≤ download.chunkSize → chunk.length ≤ download.chunkSize)

def Reaches (download : Download) (effects : List DownloadEffect) : Generator → Prop
  | .unstarted => effects = []
  | .suspended rest => Suspended download rest effects
  | .finished => Streams download .finished effects

theorem Suspended.beginning (h : Suspended download rest effects) :
    yieldedBytes effects <+: download.object.getD [] := by
  rw [h.object]
  exact List.prefix_append ..

theorem Suspended.streams (h : Suspended download rest effects) :
    Streams download (.suspended rest) effects where
  held := h.held
  beginning := h.beginning
  whole _ hended := absurd hended (h.running _)
  sized := h.sized

theorem Suspended.release {ending : Ending} {reads : List DownloadEffect}
    (h : Suspended download rest effects)
    (hreads : reads = [] ∨ ∃ answer, reads = [.read download.chunkSize answer])
    (hending : ending = .exhausted → download.chunkSize ≠ 0 → rest = []) :
    Streams download .finished (effects ++ (reads ++ release answers ending)) where
  held := by
    rw [List.foldlM_append, h.held]
    rcases hreads with rfl | ⟨answer, rfl⟩ <;> rfl
  beginning := by
    have hnone : yieldedBytes reads = [] := by
      rcases hreads with rfl | ⟨answer, rfl⟩ <;> rfl
    rw [yieldedBytes_append, yieldedBytes_append, hnone]
    simpa using h.beginning
  whole hsize hended := by
    have hnone : yieldedBytes reads = [] := by
      rcases hreads with rfl | ⟨answer, rfl⟩ <;> rfl
    have hlast : .ended .exhausted ∈ S3.release answers ending := by
      rcases List.mem_append.mp hended with hearlier | hlast
      · exact absurd hearlier (h.running _)
      · rcases hreads with rfl | ⟨answer, rfl⟩
        · exact hlast
        · exact (List.mem_cons.mp hlast).resolve_left nofun
    rw [yieldedBytes_append, yieldedBytes_append, hnone, h.object,
      hending (exhausted_mem_release hlast) hsize]
    simp
  sized chunk hchunk := by
    rcases List.mem_append.mp hchunk with hearlier | hlast
    · exact h.sized chunk hearlier
    · rcases hreads with rfl | ⟨answer, rfl⟩ <;> simp [S3.release, closeStack] at hlast

theorem Suspended.readOn (h : Suspended download rest effects) (answers : Answers) :
    Reaches download (effects ++ (download.readOn answers rest).2)
      (download.readOn answers rest).1 := by
  unfold Download.readOn
  split
  · exact h.release (.inr ⟨_, rfl⟩) nofun
  · rename_i arrived _
    dsimp only
    split
    · rename_i hempty
      exact h.release (.inr ⟨_, rfl⟩) fun _ hsize => rest_eq_nil hsize (List.isEmpty_iff.mp hempty)
    · rename_i hchunk
      constructor
      · rw [List.foldlM_append, h.held]
        rfl
      · dsimp only
        rw [h.object, yieldedBytes_append, yieldedBytes_chunk, List.append_assoc, readBody_append]
      · intro ending hended
        rcases List.mem_append.mp hended with hearlier | hlast
        · exact h.running _ hearlier
        · simp at hlast
      · intro chunk hmem
        rcases List.mem_append.mp hmem with hearlier | hlast
        · exact h.sized chunk hearlier
        · obtain rfl : chunk = _ := by simpa using hlast
          exact ⟨fun hnil => hchunk (List.isEmpty_iff.mpr hnil), readBody_length⟩

theorem reaches_start (answers : Answers) :
    Reaches download (download.start answers).2 (download.start answers).1 := by
  unfold Download.start
  split
  · exact ⟨rfl, List.nil_prefix, fun _ hended => by simp at hended, fun _ hchunk => by
      simp at hchunk⟩
  · split
    · rename_i exception hobject
      refine ⟨rfl, List.nil_prefix, fun _ hended => ?_, fun _ hchunk => ?_⟩
      · have hlast : .ended .exhausted ∈ closeStack answers (.raised exception) := by
          simpa using hended
        cases exhausted_mem_closeStack hlast
      · simp [closeStack] at hchunk
    · rename_i object hobject
      have hopened : Suspended download object
          [.enter none, .getObject download.bucket download.storageKey none] := by
        refine ⟨rfl, ?_, by simp, by simp⟩
        unfold Download.getObject at hobject
        split at hobject
        · cases hobject
        · cases hobject
        · rename_i hstored
          rw [hstored, Except.ok.inj hobject]
          rfl
      exact hopened.readOn answers

theorem Reaches.step {generator : Generator} (h : Reaches download effects generator)
    (call : ConsumerCall) :
    Reaches download (effects ++ (download.step generator call).2)
      (download.step generator call).1 := by
  cases generator with
  | unstarted =>
    obtain rfl : effects = [] := h
    cases call with
    | anext answers => exact reaches_start answers
    | athrow exception answers =>
      exact ⟨rfl, List.nil_prefix, fun _ hended => by simp [Download.step] at hended,
        fun _ hchunk => by simp [Download.step] at hchunk⟩
    | aclose answers =>
      exact ⟨rfl, List.nil_prefix, fun _ hended => by simp [Download.step] at hended,
        fun _ hchunk => by simp [Download.step] at hchunk⟩
  | suspended rest =>
    have hsuspended : Suspended download rest effects := h
    cases call with
    | anext answers => exact hsuspended.readOn answers
    | athrow exception answers => exact hsuspended.release (.inl rfl) nofun
    | aclose answers => exact hsuspended.release (.inl rfl) nofun
  | finished =>
    have hfinished : Streams download .finished effects := h
    have hnothing : effects ++ (download.step .finished call).2 = effects := List.append_nil _
    rw [hnothing]
    exact hfinished

theorem Reaches.streams {generator : Generator} (h : Reaches download effects generator) :
    Streams download generator effects := by
  cases generator with
  | unstarted =>
    obtain rfl : effects = [] := h
    exact ⟨rfl, List.nil_prefix, nofun, nofun⟩
  | suspended rest => exact Suspended.streams h
  | finished => exact h

end steps

theorem download_streams (download : Download) (calls : List ConsumerCall) :
    Streams download (download.machine.after .unstarted calls)
      (download.machine.emitted .unstarted calls) := by
  apply Reaches.streams
  induction calls using List.reverseRecOn with
  | nil => exact rfl
  | append_singleton past call ih =>
    rw [Machine.after_concat, Machine.emitted_concat]
    exact ih.step call

/-! A consumer that asks for one chunk after another. -/

def Answers.Return (answers : Answers) : Prop :=
  answers.enter = none ∧ answers.getObject = none ∧ (∃ arrived, answers.read = .ok arrived) ∧
    answers.closeBody = none ∧ answers.exitClient = none

section exhaust
variable {download : Download} {answers : Answers} {rest : Bytes}

theorem readOn_end (h : answers.Return) :
    .ended .exhausted ∈ (download.readOn answers []).2 := by
  obtain ⟨-, -, ⟨arrived, hread⟩, hclose, hexit⟩ := h
  simp [Download.readOn, hread, readBody, release, closeStack, hclose, hexit, Ending.replaced]

theorem readOn_more (hsize : download.chunkSize ≠ 0) (h : answers.Return) (hrest : rest ≠ []) :
    ∃ less, (download.readOn answers rest).1 = .suspended less ∧ less.length < rest.length := by
  obtain ⟨-, -, ⟨arrived, hread⟩, -⟩ := h
  have hchunk : ¬ (readBody download.chunkSize arrived rest).1 = [] :=
    fun hnil => hrest (rest_eq_nil hsize hnil)
  have hwhole : (readBody download.chunkSize arrived rest).1 ++ _ = rest := readBody_append
  have hlength := congrArg List.length hwhole
  rw [List.length_append] at hlength
  have hpos := List.length_pos_of_ne_nil hchunk
  refine ⟨(readBody download.chunkSize arrived rest).2, ?_, by omega⟩
  simp [Download.readOn, hread, hchunk]

theorem exhausted_of_suspended (hsize : download.chunkSize ≠ 0) {asked : List Answers}
    (h : ∀ answers ∈ asked, answers.Return) (hlong : rest.length < asked.length) :
    .ended .exhausted ∈
      download.machine.emitted (.suspended rest) (asked.map .anext) := by
  induction asked generalizing rest with
  | nil => cases hlong
  | cons answers asked ih =>
    rw [List.forall_mem_cons] at h
    apply List.mem_append.mpr
    by_cases hrest : rest = []
    · subst hrest
      exact .inl (readOn_end h.1)
    · obtain ⟨less, hless, hshorter⟩ := readOn_more hsize h.1 hrest
      have hnext : (download.machine.step (.suspended rest) (.anext answers)).1 =
        .suspended less := hless
      rw [List.length_cons] at hlong
      rw [hnext]
      exact .inr (ih h.2 (by omega))

theorem download_exhausted {object : Bytes} (hobject : download.object = some object)
    (hsize : download.chunkSize ≠ 0) {asked : List Answers}
    (h : ∀ answers ∈ asked, answers.Return) (hlong : object.length < asked.length) :
    .ended .exhausted ∈ download.machine.emitted .unstarted (asked.map .anext) := by
  cases asked with
  | nil => cases hlong
  | cons answers asked =>
    rw [List.forall_mem_cons] at h
    have hopened : download.getObject answers = .ok object := by
      simp [Download.getObject, h.1.2.1, hobject]
    have hmore := @exhausted_of_suspended _ object hsize _ (List.forall_mem_cons.mpr h) hlong
    rw [List.map_cons, Machine.emitted, List.mem_append] at hmore ⊢
    simpa [Download.machine, Download.step, Download.start, h.1.1, hopened] using hmore

end exhaust
end DddFramework.S3
