import SchemaBridge.Proofs.Ensuring
import SchemaBridge.Proofs.PolicyIndifference
import SchemaBridge.Session
/-!
# Runs of a session

A step leaves the session alone, replaces its document or brings a schema text (`apply_cases`). What
a step does to a session follows from that, and what a run does by induction over its steps.

Results:
* `apply_of_failed`, `run_succeeding`: a step that fails leaves the session alone, and a run might as
  well do without its failures.
* `apply_texts`, `run_texts`: the schema texts in a session are the last two that came to hand.
* `compare_after_run`: these two are what is compared.
* `apply_version`, `exports_succeed`: a session of the known version keeps it, so that documents in it
  are converted unless a loss is to be a failure.
-/
namespace SchemaBridge

open Model (Document)

/-! ## What a step does -/

namespace Answer

/-- Whether there is an error in place of a result. -/
def failed : Answer → Bool
  | exported c => !c.outcome.isOk
  | imported c => !c.outcome.isOk
  | changes r => !r.isOk
  | _ => false

/-- The schema text that comes to hand with an answer. -/
def text? : Answer → Option String
  | schema sdl => some sdl
  | exported c => c.outcome.toOption.map Converted.data
  | _ => none

end Answer

/-- The step brings no other version. -/
def SessionStep.KeepsVersion : SessionStep → Prop
  | loadDocument d => d.version = Document.currentVersion
  | setVersion n => n = Document.currentVersion
  | _ => True

/-- A document that is read from a schema has the known version. -/
theorem Import.version_of_document {o : Options} {sdl : String} {r : Converted Document}
    (h : (document o sdl).outcome = .ok r) : r.data.version = Document.currentVersion := by
  cases hs : Sdl.readSchema sdl with
  | error e =>
    unfold document at h
    rw [hs] at h
    cases h
  | ok schema =>
    obtain ⟨is, es, hruns⟩ := definitions_settles (.ofText sdl) 0 schema
    have hall : (collect <$> definitions (.ofText sdl) 0 schema).Runs (collect is) es := by
      rw [← bind_pure_comp]
      exact hruns.bind_pure collect
    rw [document_of_readSchema hs] at h
    rw [hall.outcome_eq h]
    rfl

namespace Session
variable {s : Session} {step : SessionStep} {steps : List SessionStep}

/-- A step leaves the session alone, or it replaces the document without a failure, by one of the known
version if the session and the step have no other, or it brings a schema text without a failure. -/
theorem apply_cases (s : Session) (step : SessionStep) :
    ((s.apply step).2 = s ∧ (s.apply step).1.text? = none) ∨
    (∃ d, (s.apply step).2 = s.setDocument d ∧ (s.apply step).1.text? = none ∧
      (s.apply step).1.failed = false ∧
      (s.document.version = Document.currentVersion → step.KeepsVersion →
        d.version = Document.currentVersion)) ∨
    ∃ sdl, (s.apply step).2 = s.setSchema sdl ∧ (s.apply step).1.text? = some sdl ∧
      (s.apply step).1.failed = false := by
  cases step with
  | loadDocument d => exact .inr (.inl ⟨d, rfl, rfl, rfl, fun _ hd => hd⟩)
  | setVersion n => exact .inr (.inl ⟨_, rfl, rfl, rfl, fun _ hn => hn⟩)
  | clearLocations | addType | removeType => exact .inr (.inl ⟨_, rfl, rfl, rfl, fun hs _ => hs⟩)
  | loadSchema sdl => exact .inr (.inr ⟨sdl, rfl, rfl, rfl⟩)
  | compare => exact .inl ⟨rfl, rfl⟩
  | toGraphql o =>
    dsimp only [apply, afterExport, Answer.text?, Answer.failed]
    cases (Export.text o s.document).outcome with
    | error e => exact .inl ⟨rfl, rfl⟩
    | ok r => exact .inr (.inr ⟨r.data, rfl, rfl, rfl⟩)
  | toCoreTypes o =>
    dsimp only [apply, afterImport, Answer.text?, Answer.failed]
    cases hc : (Import.document o s.current).outcome with
    | error e => exact .inl ⟨rfl, rfl⟩
    | ok r => exact .inr (.inl ⟨r.data, rfl, rfl, rfl, fun _ _ => Import.version_of_document hc⟩)

/-! ## Failures -/

theorem apply_of_failed (h : (s.apply step).1.failed = true) : (s.apply step).2 = s := by
  rcases apply_cases s step with ⟨hs, -⟩ | ⟨d, -, -, hok, -⟩ | ⟨sdl, -, -, hok⟩
  · exact hs
  · rw [h] at hok
    cases hok
  · rw [h] at hok
    cases hok

/-- The steps of a run that do not fail where they are taken. -/
def succeeding : Session → List SessionStep → List SessionStep
  | _, [] => []
  | s, step :: steps =>
    let (answer, next) := s.apply step
    if answer.failed then next.succeeding steps else step :: next.succeeding steps

/-- **A run might as well do without the steps that fail**: all others have the same to say, and the
session is the same after them. -/
theorem run_succeeding (s : Session) (steps : List SessionStep) :
    s.run (s.succeeding steps) = ((s.run steps).1.filter (!·.failed), (s.run steps).2) := by
  induction steps generalizing s with
  | nil => rfl
  | cons step steps ih =>
    cases h : (s.apply step).1.failed with
    | true =>
      have hnext := apply_of_failed h
      simp only [succeeding, run, h, if_true, hnext, ih, List.filter_cons, Bool.not_true,
        Bool.false_eq_true, if_false]
    | false =>
      simp only [succeeding, run, h, Bool.false_eq_true, if_false, ih, List.filter_cons, Bool.not_false,
        if_true]

/-! ## Schema texts -/

/-- The schema texts at hand, the older one first. -/
def texts (s : Session) : List String := [s.previous, s.current]

/-- A new text takes the place of the older one, and without a new text both stay. -/
theorem apply_texts (s : Session) (step : SessionStep) :
    (s.apply step).2.texts <:+ s.texts ++ (s.apply step).1.text?.toList := by
  rcases apply_cases s step with ⟨hs, htext⟩ | ⟨d, hs, htext, -⟩ | ⟨sdl, hs, htext, -⟩
  · rw [hs, htext]
    exact ⟨[], rfl⟩
  · rw [hs, htext]
    exact ⟨[], rfl⟩
  · rw [hs, htext]
    exact ⟨[s.previous], rfl⟩

/-- **A session holds the last two schema texts that came to hand**, those from before the run among
them. -/
theorem run_texts (s : Session) (steps : List SessionStep) :
    (s.run steps).2.texts <:+ s.texts ++ (s.run steps).1.filterMap Answer.text? := by
  induction steps generalizing s with
  | nil => exact ⟨[], rfl⟩
  | cons step steps ih =>
    obtain ⟨earlier, hearlier⟩ := apply_texts s step
    obtain ⟨others, hothers⟩ := ih (s.apply step).2
    have hmap : (s.run (step :: steps)).1.filterMap Answer.text?
        = (s.apply step).1.text?.toList ++ ((s.apply step).2.run steps).1.filterMap Answer.text? := by
      show ((s.apply step).1 :: ((s.apply step).2.run steps).1).filterMap Answer.text? = _
      rw [List.filterMap_cons]
      cases (s.apply step).1.text? <;> rfl
    refine ⟨earlier ++ others, ?_⟩
    calc earlier ++ others ++ (s.run (step :: steps)).2.texts
        = earlier ++ (others ++ ((s.apply step).2.run steps).2.texts) := List.append_assoc ..
      _ = (earlier ++ (s.apply step).2.texts)
            ++ ((s.apply step).2.run steps).1.filterMap Answer.text? := by
          rw [hothers, List.append_assoc]
      _ = s.texts ++ (s.run (step :: steps)).1.filterMap Answer.text? := by
          rw [hearlier, hmap, List.append_assoc]

/-- What is compared after a run are the last two texts that came to hand. -/
theorem compare_after_run {earlier : List String} {old new : String}
    (h : s.texts ++ (s.run steps).1.filterMap Answer.text? = earlier ++ [old, new]) :
    ((s.run steps).2.apply .compare).1 = .changes (Changes.compare old new) := by
  obtain ⟨others, hothers⟩ := run_texts s steps
  obtain ⟨-, hlast⟩ := List.append_inj' (hothers.trans h) rfl
  obtain ⟨hprevious, hcurrent⟩ : (s.run steps).2.previous = old ∧ (s.run steps).2.current = new := by
    simpa [texts] using hlast
  show Answer.changes (Changes.compare (s.run steps).2.previous (s.run steps).2.current) = _
  rw [hprevious, hcurrent]

end Session

/-! ## Versions -/

/-- The step does not ask for losses to be failures. -/
def SessionStep.Lenient : SessionStep → Prop
  | toGraphql o => o.unsupported ≠ .error
  | _ => True

/-- A document of the known version is converted, unless a loss is to be a failure. -/
theorem Export.text_isOk {o : Options} {d : Document} (hv : d.version = Document.currentVersion)
    (ho : o.unsupported ≠ .error) : ∃ r, (text o d).outcome = .ok r := by
  obtain ⟨c, es, hruns⟩ := run_settles o.settings d
  have hschema : (schema o d).outcome = .ok c := by
    rw [schema_of_current o hv]
    exact hruns.outcome_of_ne_error ho
  refine ⟨{ c with data := o.render c.data }, ?_⟩
  rw [text, Conversion.map, hschema]
  rfl

namespace Session
variable {s : Session} {step : SessionStep} {steps : List SessionStep}

theorem apply_version (hs : s.document.version = Document.currentVersion)
    (hstep : step.KeepsVersion) : (s.apply step).2.document.version = Document.currentVersion := by
  rcases apply_cases s step with ⟨hsame, -⟩ | ⟨d, hd, -, -, hversion⟩ | ⟨sdl, hsdl, -⟩
  · rw [hsame]
    exact hs
  · rw [hd]
    exact hversion hs hstep
  · rw [hsdl]
    exact hs

/-- **Documents are converted throughout a run** that starts with the known version, brings no other
and does not ask for losses to be failures. -/
theorem exports_succeed (hs : s.document.version = Document.currentVersion)
    (hsteps : ∀ step ∈ steps, step.KeepsVersion ∧ step.Lenient) {c : Conversion String}
    (hc : .exported c ∈ (s.run steps).1) : ∃ r, c.outcome = .ok r := by
  induction steps generalizing s with
  | nil => cases hc
  | cons step steps ih =>
    obtain ⟨hkeeps, hlenient⟩ := hsteps step List.mem_cons_self
    rcases List.mem_cons.mp hc with hfirst | hothers
    · cases step with
      | toGraphql o =>
        obtain rfl : c = Export.text o s.document := Answer.exported.inj hfirst
        exact Export.text_isOk hs hlenient
      | _ => cases hfirst
    · exact ih (apply_version hs hkeeps)
        (fun step hstep => hsteps step (List.mem_cons_of_mem _ hstep)) hothers

end Session

end SchemaBridge
