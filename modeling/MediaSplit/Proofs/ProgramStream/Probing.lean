import MediaSplit.ProgramStream.Probe
import MediaSplit.Proofs.Video.Pieces

/-!
Contract: what a video probe finds does not depend on the payloads.

Owns:
- `VideoFormat`, the formats whose headers are searched for in the stream, with
  the probe of each before the first payload;
- `Probe.pushAll`, a probe that is given payload after payload;
- `Probe.pushAll_flatten`: payloads and their concatenation complete a video
  probe or both do not, and the finding or the obstacle is the same.

Does **not** own: which payloads a probe is given, and audio probes, most of
which look at one payload alone.
-/

set_option autoImplicit false

namespace MediaSplit.ProgramStream

/-- The video formats. -/
inductive VideoFormat where
  | mpegVideo
  | avc
  | vc1
  deriving DecidableEq, Repr

/-- The probe for a format that has been given nothing. -/
def VideoFormat.probe : VideoFormat → Probe
  | mpegVideo => .mpegVideo (.starting none)
  | avc => .avc (.starting ⟨none, none⟩)
  | vc1 => .vc1 (.starting none)

namespace Probe

/-- Takes in payload after payload; says whether no more are needed. -/
def pushAll (probe : Probe) (payloads : List Bytes) : Bool × Probe :=
  payloads.foldl (fun step payload => step.2.push payload) (false, probe)

section Searching

variable {σ : Type} {rules : Units.Rules σ} {make : Units.Search σ → Probe}
  (pushes : ∀ search payload, (make search).push payload = ofSearch make (search.push rules payload))

include pushes

/-- A probe that searches is given to its search. -/
theorem pushAll_make (found : σ) (payloads : List Bytes) :
    (make (.starting found)).pushAll payloads
      = ofSearch make (payloads.foldl (Units.Search.push rules) (.starting found)) := by
  have onward : ∀ search : Units.Search σ,
      payloads.foldl (fun step payload => step.2.push payload) (ofSearch make search)
        = ofSearch make (payloads.foldl (Units.Search.push rules) search) := by
    induction payloads with
    | nil => exact fun _ => rfl
    | cons payload rest inductionHypothesis =>
        intro search
        rw [List.foldl_cons, List.foldl_cons, ← inductionHypothesis, ← pushes]
        rfl
  exact onward (.starting found)

/-- Searches that come to the same make probes that come to the same. -/
theorem pushAll_flatten_of_congr
    (congr : ∀ search other : Units.Search σ, search.Agrees other →
      (make search).finding = (make other).finding)
    (found : σ)
    (payloads : List Bytes) :
    ((make (.starting found)).pushAll payloads).1
        = ((make (.starting found)).push payloads.flatten).1
      ∧ ((make (.starting found)).pushAll payloads).2.finding
          = ((make (.starting found)).push payloads.flatten).2.finding := by
  have agrees := Units.Search.agrees_foldl_push rules found payloads
  rw [pushAll_make pushes, pushes]
  exact ⟨agrees.isComplete, congr _ _ agrees⟩

end Searching

/-- A video probe finds in a stream what it finds, whatever payloads the stream
is cut into. -/
theorem pushAll_flatten (format : VideoFormat) (payloads : List Bytes) :
    (format.probe.pushAll payloads).1 = (format.probe.push payloads.flatten).1
      ∧ (format.probe.pushAll payloads).2.finding
          = (format.probe.push payloads.flatten).2.finding := by
  cases format with
  | mpegVideo =>
      have pushes : ∀ search payload, (mpegVideo search).push payload
          = ofSearch mpegVideo (search.push MpegVideo.rules payload) := fun _ _ => rfl
      apply pushAll_flatten_of_congr pushes
      rintro ⟨found, pending, isComplete⟩ ⟨_, otherPending, _⟩ ⟨rfl, rfl, -⟩
      cases found <;> cases isComplete <;> rfl
  | avc =>
      have pushes : ∀ search payload, (avc search).push payload
          = ofSearch avc (search.push Avc.rules payload) := fun _ _ => rfl
      apply pushAll_flatten_of_congr pushes
      intro search other agrees
      exact congrArg ofParameterSets agrees.found
  | vc1 =>
      have pushes : ∀ search payload, (vc1 search).push payload
          = ofSearch vc1 (search.push Vc1.rules payload) := fun _ _ => rfl
      apply pushAll_flatten_of_congr pushes
      rintro ⟨found, pending, isComplete⟩ ⟨_, otherPending, _⟩ ⟨rfl, -, -⟩
      cases found <;> rfl

end Probe

end MediaSplit.ProgramStream
