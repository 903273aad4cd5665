import Shiftgram.Downloads

/- A download over its attempts. The app calls `download:` once and never pauses: what it gets is the
   object exactly if no attempt failed after it had written something (`downloaded_iff`), because the
   session tries again with the same file, to which the next attempt appends.

   A request that was paused goes on behind what the file has. While a byte is missing it can complete
   with the object; with all bytes there S3 refuses the range, in every attempt, and the request never
   completes (`resumed_or_stuck`). -/
namespace Shiftgram

namespace DownloadManager

open TransferManager (RequestState)

variable {m : Setting} {s s' : State}

/-! ## Retries -/

/-- The request of `downloadImage`, after its call of `download:`. -/
def State.begun (originalFile : Option Bytes) : State := download (State.init originalFile)

/-- The app leaves the request alone. -/
def Driven (e : Event) : Prop := e ≠ .download ∧ e ≠ .pause ∧ e ≠ .cancel

/-- An attempt that fails has not written anything, and none before it has. -/
def Unwritten (s : State) (e : Event) : Prop :=
  ∀ error, e = .attemptFailed error → s.temporaryFile.getD [] = []

instance (e : Event) : Decidable (Driven e) := inferInstanceAs (Decidable (_ ∧ _ ∧ _))

instance (s : State) (e : Event) : Decidable (Unwritten s e) :=
  match e with
  | .attemptFailed _ => decidable_of_iff (s.temporaryFile.getD [] = []) (by simp [Unwritten])
  | .download | .receivedResponse _ | .receivedData _ | .attemptEnded | .retry | .pause | .cancel =>
    isTrue (by simp [Unwritten])

/-- Where the temporary file of the request is, with `wasted` in front of what is wanted. -/
def Filed (m : Setting) (s : State) (wasted : Bytes) : Prop :=
  match s.session.map Session.stage with
  | some (.receiving rest) =>
    ∃ bytes, s.temporaryFile = some (wasted ++ bytes) ∧ bytes ++ rest = m.object
  | some _ => s.temporaryFile.getD [] = wasted
  | none => (.downloaded ∈ s.results ∧ s.originalFile = some (wasted ++ m.object)) ∨
      (.downloaded ∉ s.results ∧ s.temporaryFile.getD [] = wasted)

/-- What holds of the request in all states; `wasted` is what failed attempts have left. -/
structure Running (m : Setting) (s : State) (wasted : Bytes) : Prop where
  session : ∀ session, s.session = some session → session.range = none ∧ s.results = []
  active : s.request.isCancelled = false
  filed : Filed m s wasted

theorem running_begun (originalFile : Option Bytes) : Running m (State.begun originalFile) [] where
  session := by
    rintro _ ⟨⟩
    exact ⟨rfl, rfl⟩
  active := rfl
  filed := rfl

/-- Nothing was wasted so far. -/
def Clean (m : Setting) (s : State) : Prop := Filed m s []

theorem clean_iff {wasted : Bytes} (h : Filed m s wasted) : Clean m s ↔ wasted = [] := by
  refine ⟨fun hclean => ?_, fun hempty => by rw [hempty] at h; exact h⟩
  unfold Clean Filed at hclean
  unfold Filed at h
  cases hstage : s.session.map Session.stage with
  | none =>
    rw [hstage] at h hclean
    obtain ⟨hmem, hfile⟩ | ⟨hmem, hfile⟩ := h
    · obtain ⟨-, hfile'⟩ | ⟨hmem', -⟩ := hclean
      · simpa [hfile] using hfile'
      · exact absurd hmem hmem'
    · obtain ⟨hmem', -⟩ | ⟨-, hfile'⟩ := hclean
      · exact absurd hmem' hmem
      · exact hfile.symm.trans hfile'
  | some stage =>
    rw [hstage] at h hclean
    cases stage with
    | receiving rest =>
      obtain ⟨bytes, hbytes, hobject⟩ := h
      obtain ⟨bytes', hbytes', hobject'⟩ := hclean
      have hlength := congrArg List.length (hobject.trans hobject'.symm)
      have hfile := congrArg List.length (Option.some.inj (hbytes.symm.trans hbytes'))
      simp only [List.length_append, List.nil_append] at hlength hfile
      exact List.eq_nil_of_length_eq_zero (by omega)
    | waiting => exact h.symm.trans hclean
    | refused retried => exact h.symm.trans hclean
    | sleeping => exact h.symm.trans hclean

section Steps

variable {wasted : Bytes} (h : Running m s wasted) {session : Session} (hsession : s.session = some session)
include h hsession

/-- An attempt that fails leaves what is in the file. -/
theorem running_attemptFailed {file : Bytes} (hfile : s.temporaryFile.getD [] = file)
    (error : AttemptError) : Running m (attemptFailed m s session error) file := by
  obtain ⟨hrange, hresults⟩ := h.session session hsession
  unfold attemptFailed
  split
  · refine ⟨?_, h.active, hfile⟩
    rintro _ ⟨⟩
    exact ⟨hrange, hresults⟩
  · exact ⟨by rintro _ ⟨⟩, h.active, Or.inr ⟨by simp [taskFailed, hresults], hfile⟩⟩

/-- What an attempt finds before it is answered. -/
theorem Running.file_waiting (hstage : ∀ rest, session.stage ≠ .receiving rest) :
    s.temporaryFile.getD [] = wasted := by
  have hfiled := h.filed
  unfold Filed at hfiled
  rw [hsession, Option.map_some] at hfiled
  cases hs : session.stage with
  | receiving rest => exact absurd hs (hstage rest)
  | waiting => rwa [hs] at hfiled
  | refused retried => rwa [hs] at hfiled
  | sleeping => rwa [hs] at hfiled

theorem Running.file_receiving {rest : Bytes} (hstage : session.stage = .receiving rest) :
    ∃ bytes, s.temporaryFile = some (wasted ++ bytes) ∧ bytes ++ rest = m.object := by
  have hfiled := h.filed
  unfold Filed at hfiled
  rwa [hsession, Option.map_some, hstage] at hfiled

/-- Every step keeps what was wasted, but for an attempt that fails. -/
theorem running_step {e : Event} (he : session.Accepts m e) (hs' : step m s e = some s') :
    ∃ left, Running m s' left ∧ (left = [] ↔ wasted = [] ∧ Unwritten s e) := by
  obtain ⟨hrange, hresults⟩ := h.session session hsession
  have hkept : ∀ {e : Event}, (∀ error, e ≠ .attemptFailed error) →
      (wasted = [] ↔ wasted = [] ∧ Unwritten s e) := fun hne =>
    (and_iff_left fun error heq => absurd heq (hne error)).symm
  cases e with
  | download => exact absurd he id
  | pause => exact absurd he id
  | cancel => exact absurd he id
  | receivedResponse refusal =>
    simp only [step, hsession, Option.map_some] at hs'
    obtain rfl := Option.some.inj hs'
    refine ⟨wasted, ?_, hkept (by simp)⟩
    have hwaiting : session.stage = .waiting := by
      cases refusal with
      | none => exact he.1
      | some retried => exact he
    have hfile := h.file_waiting hsession fun rest hrest => by
      rw [hwaiting] at hrest
      cases hrest
    cases refusal with
    | none =>
      refine ⟨?_, h.active, [], ?_, ?_⟩
      · rintro _ ⟨⟩
        exact ⟨hrange, hresults⟩
      · show some (s.temporaryFile.getD []) = some (wasted ++ [])
        rw [hfile, List.append_nil]
      · rw [hrange]
        rfl
    | some retried =>
      refine ⟨?_, h.active, hfile⟩
      rintro _ ⟨⟩
      exact ⟨hrange, hresults⟩
  | receivedData count =>
    simp only [step, hsession, Option.bind_some] at hs'
    refine ⟨wasted, ?_, hkept (by simp)⟩
    unfold receivedData at hs'
    split at hs'
    · next _ _ rest hstage =>
      obtain rfl := Option.some.inj hs'
      obtain ⟨bytes, hbytes, hobject⟩ := h.file_receiving hsession hstage
      refine ⟨?_, h.active, bytes ++ rest.take count, ?_, ?_⟩
      · rintro _ ⟨⟩
        exact ⟨hrange, hresults⟩
      · show s.temporaryFile.map (· ++ rest.take count) = _
        rw [hbytes, Option.map_some, List.append_assoc]
      · rw [List.append_assoc, List.take_append_drop, hobject]
    · exact Option.some.inj hs' ▸ h
    · cases hs'
  | attemptEnded =>
    simp only [step, hsession, Option.map_some] at hs'
    obtain rfl := Option.some.inj hs'
    refine ⟨wasted, ?_, hkept (by simp)⟩
    obtain hstage | ⟨retried, hstage⟩ := he
    · obtain ⟨bytes, hbytes, hobject⟩ := h.file_receiving hsession hstage
      simp only [attemptEnded, hstage]
      refine ⟨by rintro _ ⟨⟩, h.active, Or.inl ⟨by simp [taskDownloaded], ?_⟩⟩
      show s.temporaryFile.or s.originalFile = _
      rw [hbytes, ← hobject, List.append_nil]
      rfl
    · have hfile := h.file_waiting hsession fun rest hrest => by
        rw [hstage] at hrest
        cases hrest
      simp only [attemptEnded, hstage]
      exact running_attemptFailed h hsession hfile _
  | attemptFailed error =>
    simp only [step, hsession, Option.map_some] at hs'
    obtain rfl := Option.some.inj hs'
    refine ⟨_, running_attemptFailed h hsession rfl error, ?_⟩
    refine ⟨fun hempty => ⟨?_, fun _ _ => hempty⟩, fun hboth => hboth.2 error rfl⟩
    by_cases hstage : ∃ rest, session.stage = .receiving rest
    · obtain ⟨rest, hstage⟩ := hstage
      obtain ⟨bytes, hbytes, -⟩ := h.file_receiving hsession hstage
      rw [hbytes] at hempty
      exact (List.append_eq_nil_iff.1 hempty).1
    · exact (h.file_waiting hsession fun rest hrest => hstage ⟨rest, hrest⟩).symm.trans hempty
  | retry =>
    simp only [step, hsession, Option.map_some] at hs'
    obtain rfl := Option.some.inj hs'
    refine ⟨wasted, ?_, hkept (by simp)⟩
    have hfile := h.file_waiting hsession fun rest hrest => by
      rw [show session.stage = .sleeping from he] at hrest
      cases hrest
    unfold retry
    rw [h.active]
    refine ⟨?_, h.active, hfile⟩
    rintro _ ⟨⟩
    exact ⟨hrange, hresults⟩

end Steps

/-- What the app gets of a download that succeeds is the object exactly if no attempt failed after it
    had written something. -/
theorem downloaded_iff (originalFile : Option Bytes) (es : List Event) {t : State}
    (hes : Runs.Along (step m) (fun s e => Enabled m s e ∧ Driven e) (State.begun originalFile) es)
    (ht : Runs.exec (step m) (State.begun originalFile) es = some t) (hdone : .downloaded ∈ t.results) :
    t.originalFile = some m.object ↔
      Runs.Along (step m) Unwritten (State.begun originalFile) es := by
  have hstep : ∀ s e s', (∃ wasted, Running m s wasted) → Enabled m s e ∧ Driven e →
      step m s e = some s' → (∃ left, Running m s' left) ∧ (Clean m s' ↔ Clean m s ∧ Unwritten s e) := by
    rintro s e s' ⟨wasted, h⟩ ⟨he, hdriven⟩ hs'
    obtain ⟨session, hsession, haccepts⟩ : ∃ session, s.session = some session ∧ session.Accepts m e := by
      cases e with
      | download => exact absurd rfl hdriven.1
      | pause => exact absurd rfl hdriven.2.1
      | cancel => exact absurd rfl hdriven.2.2
      | _ => exact he
    obtain ⟨left, hleft, hiff⟩ := running_step h hsession haccepts hs'
    exact ⟨⟨left, hleft⟩, by rw [clean_iff hleft.filed, clean_iff h.filed, hiff]⟩
  obtain ⟨⟨wasted, h⟩, hclean⟩ := Runs.exec_iff_along_trap hstep ⟨[], running_begun originalFile⟩ hes ht
  rw [and_iff_right (show Clean m (State.begun originalFile) from (running_begun originalFile).filed)] at hclean
  rw [← hclean, clean_iff h.filed]
  have hended : t.session = none := by
    cases hsession : t.session with
    | none => rfl
    | some session =>
      rw [(h.session session hsession).2] at hdone
      cases hdone
  have hfiled := h.filed
  unfold Filed at hfiled
  rw [hended, Option.map_none] at hfiled
  obtain ⟨-, hfile⟩ | ⟨hnot, -⟩ := hfiled
  · rw [hfile]
    simp
  · exact absurd hdone hnot

/-- A connection that is lost before the first byte does no harm. -/
theorem downloaded_afterRetry :
    ∃ t, Runs.exec (step ⟨[1, 2, 3], 3⟩) (State.begun none)
        [.attemptFailed .lost, .retry, .receivedResponse none, .receivedData 3, .attemptEnded] = some t ∧
      t.originalFile = some [1, 2, 3] :=
  ⟨_, rfl, (downloaded_iff (m := ⟨[1, 2, 3], 3⟩) none
    [.attemptFailed .lost, .retry, .receivedResponse none, .receivedData 3, .attemptEnded]
    (by decide) rfl (by decide)).2 (by decide)⟩

/-! ## Pauses -/

/-- A response that has come whole, and the task succeeds. -/
theorem leads_of_received (h : Inv m s) {session : Session} (hsession : s.session = some session)
    (hstage : session.stage = .receiving []) :
    ∃ t, Runs.Leads (step m) (fun s e => Enabled m s e ∧ InPlace s e) s t ∧
      .downloaded ∈ t.results ∧ t.originalFile = some m.object := by
  have hstep : step m s .attemptEnded = some (taskDownloaded s) := by
    simp only [step, hsession, Option.map_some, attemptEnded, hstage]
  have hdone : .downloaded ∈ (taskDownloaded s).results := by simp [taskDownloaded]
  exact ⟨_, .head (e := .attemptEnded) ⟨⟨session, hsession, Or.inl hstage⟩, trivial⟩ hstep (.refl _),
    hdone, (inv_taskDownloaded h hsession hstage).exact.2 hdone⟩

theorem leads_of_receiving (h : Inv m s) {session : Session} {rest : Bytes}
    (hsession : s.session = some session) (hstage : session.stage = .receiving rest) (hrest : rest ≠ []) :
    ∃ t, Runs.Leads (step m) (fun s e => Enabled m s e ∧ InPlace s e) s t ∧
      .downloaded ∈ t.results ∧ t.originalFile = some m.object := by
  have haccepts : session.Accepts m (.receivedData rest.length) := by
    simp only [Session.Accepts, hstage]
    exact ⟨List.length_pos_iff.2 hrest, le_rfl⟩
  have hplace : InPlace s (.receivedData rest.length) := by
    intro session' retried hsession' hrefused
    obtain rfl := Option.some.inj (hsession.symm.trans hsession')
    rw [hstage] at hrefused
    cases hrefused
  obtain ⟨s', hs', hinv⟩ := inv_receivedData h hsession haccepts hplace
  have hstep : step m s (.receivedData rest.length) = some s' := by
    simp only [step, hsession, Option.bind_some, hs']
  simp only [receivedData, hstage] at hs'
  obtain rfl := Option.some.inj hs'
  obtain ⟨t, ht, hdone⟩ := leads_of_received hinv rfl (by simp)
  exact ⟨t, .head (e := .receivedData rest.length) ⟨⟨session, hsession, haccepts⟩, hplace⟩ hstep ht, hdone⟩

/-- The range starts where the file ends, so that what is missing comes. -/
theorem leads_of_paused (h : Inv m s) (hpaused : s.request.state = .paused) (hended : s.session = none)
    (hmissing : (s.temporaryFile.getD []).length < m.object.length) :
    ∃ t, Runs.Leads (step m) (fun s e => Enabled m s e ∧ InPlace s e) s t ∧
      .downloaded ∈ t.results ∧ t.originalFile = some m.object := by
  let session : Session := ⟨some (s.temporaryFile.getD []).length, 0, .waiting, .unset, false⟩
  have hsession : (download s).session = some session := by simp [download, hpaused, session]
  have hfile : (download s).temporaryFile = s.temporaryFile := by simp [download, hpaused]
  have hinv := inv_download h
  have haccepts : session.Accepts m (.receivedResponse none) := ⟨rfl, by simpa [session] using hmissing⟩
  have hplace : InPlace (download s) (.receivedResponse none) := by
    intro session' hsession'
    obtain rfl := Option.some.inj (hsession.symm.trans hsession')
    rw [hfile]
    rfl
  have hstep : step m (download s) (.receivedResponse none) = some (served m (download s) session) := by
    simp only [step, hsession, Option.map_some]
    rfl
  have hrest : m.object.drop (session.range.getD 0) ≠ [] := by
    rw [ne_eq, List.drop_eq_nil_iff, not_le]
    exact hmissing
  obtain ⟨t, ht, hdone⟩ :=
    leads_of_receiving (inv_served hinv hsession (hplace session hsession)) rfl rfl hrest
  have hresponse := Runs.Leads.head (C := fun s e => Enabled m s e ∧ InPlace s e)
    (e := .receivedResponse none) ⟨⟨session, hsession, haccepts⟩, hplace⟩ hstep ht
  exact ⟨t, .head (e := .download) ⟨hended, trivial⟩ rfl hresponse, hdone⟩

/-- A request whose range, if it is asked for again, starts behind the object. -/
structure Stuck (m : Setting) (s : State) : Prop where
  full : m.object.length ≤ (s.temporaryFile.getD []).length
  asks : s.request.state = .paused ∨ s.request.state = .canceling ∨
    ∃ start, s.request.range = some start ∧ m.object.length ≤ start
  session : ∀ session, s.session = some session →
    (∃ start, session.range = some start ∧ m.object.length ≤ start) ∧
      ∀ rest, session.stage ≠ .receiving rest
  failed : .downloaded ∉ s.results

theorem stuck_taskFailed (h : Stuck m s) (error : DownloadError) : Stuck m (taskFailed s error) where
  full := h.full
  asks := h.asks
  session := by rintro _ ⟨⟩
  failed := fun hmem => h.failed (mem_failed.1 hmem)

/-- A session that goes on with its range. -/
theorem stuck_session (h : Stuck m s) {session session' : Session} (hsession : s.session = some session)
    (hrange : session'.range = session.range) (hstage : ∀ rest, session'.stage ≠ .receiving rest) :
    Stuck m { s with session := some session' } where
  full := h.full
  asks := h.asks
  session := by
    rintro _ ⟨⟩
    rw [hrange]
    exact ⟨(h.session session hsession).1, hstage⟩
  failed := h.failed

theorem stuck_attemptFailed (h : Stuck m s) {session : Session} (hsession : s.session = some session)
    (error : AttemptError) : Stuck m (attemptFailed m s session error) := by
  unfold attemptFailed
  split
  · exact stuck_session h hsession rfl (by simp)
  · exact stuck_taskFailed h _

theorem stuck_download (h : Stuck m s) : Stuck m (download s) := by
  unfold download
  split
  · exact ⟨h.full, h.asks, h.session, fun hmem => h.failed (mem_failed.1 hmem)⟩
  · split
    · exact ⟨h.full, h.asks, h.session, fun hmem => h.failed (mem_failed.1 hmem)⟩
    · next _ hcanceling =>
      have hrange : ∃ start, (if s.request.state = .paused then some (s.temporaryFile.getD []).length
          else s.request.range) = some start ∧ m.object.length ≤ start := by
        split
        · exact ⟨_, rfl, h.full⟩
        · next hpaused =>
          obtain hstate | hstate | hasks := h.asks
          · exact absurd hstate hpaused
          · exact absurd hstate hcanceling
          · exact hasks
      refine ⟨h.full, Or.inr (Or.inr hrange), ?_, h.failed⟩
      rintro _ ⟨⟩
      exact ⟨hrange, by simp⟩

/-- A request that is asked to stop. -/
theorem stuck_cancelTask (h : Stuck m s) {request : DownloadRequest}
    (hstate : request.state = .paused ∨ request.state = .canceling) :
    Stuck m (cancelTask { s with request }) where
  full := h.full
  asks := hstate.elim Or.inl fun hstate => Or.inr (Or.inl hstate)
  session := by
    intro session hsession
    obtain ⟨session', hsession', rfl⟩ := Option.map_eq_some_iff.1 hsession
    have hold := h.session session' hsession'
    split
    · exact hold
    · exact hold
  failed := h.failed

theorem stuck_step (h : Stuck m s) {e : Event} (he : Enabled m s e) (hs' : step m s e = some s') :
    Stuck m s' := by
  cases e with
  | download =>
    obtain rfl := Option.some.inj hs'
    exact stuck_download h
  | receivedResponse refusal =>
    obtain ⟨session, hsession, haccepts⟩ := he
    obtain ⟨⟨start, hrange, hbehind⟩, -⟩ := h.session session hsession
    simp only [step, hsession, Option.map_some] at hs'
    obtain rfl := Option.some.inj hs'
    cases refusal with
    | none =>
      have hinside := haccepts.2 start hrange
      omega
    | some retried => exact stuck_session h hsession rfl (by simp)
  | receivedData count =>
    obtain ⟨session, hsession, -⟩ := he
    simp only [step, hsession, Option.bind_some] at hs'
    unfold receivedData at hs'
    split at hs'
    · next rest hstage => exact absurd hstage ((h.session session hsession).2 _)
    · exact Option.some.inj hs' ▸ h
    · cases hs'
  | attemptEnded =>
    obtain ⟨session, hsession, haccepts⟩ := he
    simp only [step, hsession, Option.map_some] at hs'
    obtain rfl := Option.some.inj hs'
    obtain hstage | ⟨retried, hstage⟩ := haccepts
    · exact absurd hstage ((h.session session hsession).2 _)
    · simp only [attemptEnded, hstage]
      exact stuck_attemptFailed h hsession _
  | attemptFailed error =>
    obtain ⟨session, hsession, -⟩ := he
    simp only [step, hsession, Option.map_some] at hs'
    obtain rfl := Option.some.inj hs'
    exact stuck_attemptFailed h hsession error
  | retry =>
    obtain ⟨session, hsession, -⟩ := he
    simp only [step, hsession, Option.map_some] at hs'
    obtain rfl := Option.some.inj hs'
    unfold retry
    split
    · exact stuck_taskFailed h _
    · exact stuck_session h hsession rfl (by simp)
  | pause =>
    obtain rfl := Option.some.inj hs'
    show Stuck m (pause s)
    unfold pause
    split
    · exact h
    · exact stuck_cancelTask h (Or.inl rfl)
  | cancel =>
    obtain rfl := Option.some.inj hs'
    show Stuck m (cancel s)
    unfold cancel
    split
    · exact h
    · exact stuck_cancelTask h (Or.inr rfl)

/-- A request that was paused, and whose task has ended, can still complete if a byte of the object is
    missing, with the object; with none missing it does not complete, whatever comes. -/
theorem resumed_or_stuck (originalFile : Option Bytes) (es : List Event) {s : State}
    (hes : Runs.Along (step m) (fun s e => Enabled m s e ∧ InPlace s e) (State.init originalFile) es)
    (hs : Runs.exec (step m) (State.init originalFile) es = some s)
    (hpaused : s.request.state = .paused) (hended : s.session = none) :
    ((s.temporaryFile.getD []).length < m.object.length →
      ∃ t, Runs.Leads (step m) (fun s e => Enabled m s e ∧ InPlace s e) s t ∧
        .downloaded ∈ t.results ∧ t.originalFile = some m.object) ∧
    (¬ (s.temporaryFile.getD []).length < m.object.length →
      ∀ t, Runs.Leads (step m) (Enabled m) s t → .downloaded ∉ t.results) := by
  obtain ⟨t, ht, hinv⟩ := Runs.exec_ok (fun _ _ h he => inv_step h he.1 he.2) (inv_init m originalFile) hes
  obtain rfl := Option.some.inj (ht.symm.trans hs)
  refine ⟨leads_of_paused hinv hpaused hended, fun hfull => ?_⟩
  have hstuck : Stuck m t := by
    refine ⟨not_lt.1 hfull, Or.inl hpaused, by simp [hended], fun hmem => ?_⟩
    have hcompleted := (hinv.ended hmem).1
    rw [hpaused] at hcompleted
    cases hcompleted
  rintro u ⟨fs, hfs, hu⟩
  have hall : Runs.Throughout (step m) (Stuck m) t fs :=
    Runs.throughout_ok (fun _ _ h he _ hs' => stuck_step h he hs') (fun _ h => h) hstuck hfs
  exact (Runs.throughout_last hall hu).failed

/-- A download that was paused after two bytes of three. -/
theorem resumed_afterTwo :
    ∃ t, Runs.Leads (step ⟨[1, 2, 3], 3⟩) (fun s e => Enabled ⟨[1, 2, 3], 3⟩ s e ∧ InPlace s e)
        (taskFailed ⟨⟨.paused, none, false⟩, some [1, 2], none, none, []⟩ .paused) t ∧
      .downloaded ∈ t.results ∧ t.originalFile = some [1, 2, 3] :=
  (resumed_or_stuck (m := ⟨[1, 2, 3], 3⟩) none
    [.download, .receivedResponse none, .receivedData 2, .pause, .attemptFailed .cancelled]
    (by decide) rfl rfl rfl).1 (by decide)

end DownloadManager

end Shiftgram
