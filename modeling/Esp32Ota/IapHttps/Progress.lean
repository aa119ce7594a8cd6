import Esp32Ota.HttpsClient.Wire
import Esp32Ota.IapHttps.Session
import Esp32Ota.IapHttps.Truncated

-- What `iap_https_update_in_progress` tells while the updater task is running.
namespace Esp32Ota

open CLib Halting

-- A download between two callbacks: no full page has been rejected so far.
structure Fetching (start s : App) : Prop extends InAttempt s where
  partialPage : s.hasIapSession = true → s.device.iapState.pageBufferIx < IAP_PAGE_SIZE
  accepting : Accepting start.device s.device
  firmwareBuffer : s.firmwareBuffer = start.firmwareBuffer

-- A download ended by its callback: the flag is left set if a page was rejected.
structure Ends (start s : App) : Prop where
  stuck : s.hasIapSession = true ↔ Rejects start.device s.device
  firmwareBuffer : s.firmwareBuffer = start.firmwareBuffer

theorem Ends.of_accepting {start s : App} (hflag : s.hasIapSession = false)
    (haccepting : Accepting start.device s.device) (hbuffer : s.firmwareBuffer = start.firmwareBuffer) :
    Ends start s := by
  refine ⟨iff_of_false (fun h => ?_) haccepting.not_rejects, hbuffer⟩
  rw [hflag] at h
  cases h

theorem Fetching.start {s : App} (hs : Ready s) : Fetching s.newAttempt s.newAttempt :=
  { hs.newAttempt with
    partialPage := fun h => by cases h
    accepting := Follows.refl _ _
    firmwareBuffer := rfl }

section Callback

variable {start s : App} (replies : FirmwareReplies)

theorem iapHttpsStartSession_accepts (s : App) :
    wp (iapHttpsStartSession replies) (fun _ t => Accepting s.device t.device) (fun _ _ => True) s := by
  simp only [iapHttpsStartSession, wp_bind, wp_get, wp_ite, wp_pure, wp_onDevice, wp_modify]
  refine ⟨fun _ => Follows.refl _ _, fun _ => ?_⟩
  refine wp_mono (iapBegin_accepts replies.begin s.device) ?_ (fun _ _ _ => trivial)
  intro first t ht
  refine ⟨fun _ => ?_, fun _ => ⟨fun _ => ht, fun _ => ht⟩⟩
  refine wp_mono (iapAbort_accepts replies.abortOpen t) ?_ (fun _ _ _ => trivial)
  intro _ u hu
  refine wp_mono (iapBegin_accepts replies.beginAgain u) ?_ (fun _ _ _ => trivial)
  exact fun _ v hv => ⟨fun _ => (ht.trans hu).trans hv, fun _ => (ht.trans hu).trans hv⟩

theorem iapHttpsStartSession_progress (hs : Fetching start s) :
    wp (iapHttpsStartSession replies)
      (fun started t => (started = true → Fetching start t ∧ t.hasIapSession = true) ∧
        (started = false → Ends start t)) (fun _ _ => False) s := by
  refine wp_mono (wp_and (iapHttpsStartSession_spec hs.toReady replies)
    (iapHttpsStartSession_accepts replies s)) ?_ (fun _ _ h => h.1)
  intro started t ht
  obtain ⟨ht, haccepts⟩ := ht
  have haccepting := hs.accepting.trans haccepts
  have hattempt := ht.inAttempt hs.toInAttempt
  cases ht with
  | running hstarted has heq =>
      subst heq
      exact ⟨fun _ => ⟨hs, has⟩, fun h => by rw [hstarted] at h; cases h⟩
  | opened hstarted _ opened heq =>
      refine ⟨fun _ => ⟨{ hattempt.1 with
        partialPage := fun _ => ?_
        accepting := haccepting
        firmwareBuffer := ?_ }, ?_⟩, fun h => by rw [hstarted] at h; cases h⟩
      · rw [opened.start]
        decide
      · rw [heq]
        exact hs.firmwareBuffer
      · rw [heq]
  | failed hstarted fresh _ heq =>
      refine ⟨fun h => (by rw [hstarted] at h; cases h), fun _ => Ends.of_accepting ?_ haccepting ?_⟩
      · rw [heq]
        exact fresh
      · rw [heq]
        exact hs.firmwareBuffer

theorem iapHttpsWriteData_progress (hs : Fetching start s) (hsession : s.hasIapSession = true)
    {responseBuffer : Bytes} {bytesReceived : Nat} (hbytes : responseBuffer.take (uint16 bytesReceived) ≠ []) :
    wp (iapHttpsWriteData replies responseBuffer bytesReceived)
      (fun cr t => (cr = .continueReceiving → Fetching start t ∧ t.hasIapSession = true) ∧
        (cr ≠ .continueReceiving → Ends start t))
      (fun _ _ => False) s := by
  have hopen := hs.session hsession
  simp only [iapHttpsWriteData, wp_bind, wp_ite, wp_pure, wp_onDevice, wp_modify]
  refine wp_mono (wp_and (iapWrite_spec hopen _ replies.write) (iapWrite_accepts hopen _ replies.write)) ?_
    (fun _ _ h => h.1)
  intro result u hu
  obtain ⟨hwritten, haccepts, hrejects⟩ := hu
  refine ⟨fun hne => ?_, fun hok => ⟨fun _ => ?_, fun h => absurd rfl h⟩⟩
  · refine wp_mono (wp_and (iapAbort_spec (.inl hwritten.session) replies.abort)
      (iapAbort_accepts replies.abort u)) ?_ (fun _ _ h => h.1)
    intro _ v hv
    obtain ⟨-, habort⟩ := hv
    refine ⟨fun h => (by cases h), fun _ => ⟨iff_of_true hsession ?_, hs.firmwareBuffer⟩⟩
    exact ((hrejects hne).after hs.accepting).before habort
  · rw [not_not] at hok
    subst hok
    refine ⟨{ Ready.of_session hwritten.session with
      session := fun _ => hwritten.session
      partialPage := fun _ => ?_
      accepting := hs.accepting.trans (haccepts rfl)
      firmwareBuffer := hs.firmwareBuffer }, hsession⟩
    rcases hwritten.outcome with ⟨-, hpart | ⟨hnil, -⟩⟩ | ⟨hfailed, -⟩
    · exact hpart
    · exact absurd hnil hbytes
    · cases hfailed

theorem iapHttpsFinishSession_progress (hs : Fetching start s) (hsession : s.hasIapSession = true) :
    wp (iapHttpsFinishSession replies) (fun cr t => cr = .stopReceiving ∧ Ends start t)
      (fun _ t => t.hasIapSession = false) s := by
  by_cases htotal : 0 < s.totalNofBytesReceived
  · rw [wp_iapHttpsFinishSession_commit replies htotal]
    have hpage : s.device.iapState.pageBufferIx ≠ IAP_PAGE_SIZE := (hs.partialPage hsession).ne
    refine wp_mono (wp_and (iapCommit_spec (hs.session hsession) replies.commit)
      (iapCommit_accepts replies.commit hpage)) ?_ (fun _ _ h => h.1.elim)
    intro result device hdevice
    obtain ⟨-, haccepts⟩ := hdevice
    exact ⟨fun _ => rfl, fun _ => ⟨rfl, Ends.of_accepting rfl (hs.accepting.trans haccepts) hs.firmwareBuffer⟩⟩
  · simp only [iapHttpsFinishSession, wp_bind, wp_get, wp_ite, wp_pure, wp_onDevice, wp_modify]
    refine ⟨fun h => absurd h htotal, fun _ => ?_⟩
    exact wp_mono (iapAbort_accepts replies.abort s.device)
      (fun _ device hdevice => ⟨trivial, Ends.of_accepting rfl (hs.accepting.trans hdevice) hs.firmwareBuffer⟩)
      (fun _ _ _ => trivial)

theorem iapHttpsFirmwareBodyCallback_progress (hs : Fetching start s) {responseBuffer : Bytes}
    {bytesReceived : Nat} (hbytes : 0 < bytesReceived → responseBuffer.take (uint16 bytesReceived) ≠ []) :
    wp (iapHttpsFirmwareBodyCallback replies responseBuffer bytesReceived)
      (fun cr t => (cr = .continueReceiving → 0 < bytesReceived ∧ Fetching start t ∧ t.hasIapSession = true) ∧
        (cr ≠ .continueReceiving → Ends start t))
      (fun _ t => t.hasIapSession = false) s := by
  simp only [iapHttpsFirmwareBodyCallback, wp_bind, wp_ite, wp_pure]
  refine wp_mono (iapHttpsStartSession_progress replies hs) ?_ (fun _ _ h => h.elim)
  intro started t ht
  refine ⟨fun hstarted => ?_, fun hstarted => ⟨fun h => (by cases h), fun _ => ht.2 (by simpa using hstarted)⟩⟩
  obtain ⟨hfetching, hsession⟩ := ht.1 hstarted
  refine ⟨fun hdata => ?_, fun _ => ?_⟩
  · exact wp_mono (iapHttpsWriteData_progress replies hfetching hsession (hbytes hdata))
      (fun _ _ hu => ⟨fun hcr => ⟨hdata, hu.1 hcr⟩, hu.2⟩) (fun _ _ h => h.elim)
  · refine wp_mono (iapHttpsFinishSession_progress replies hfetching hsession) ?_ (fun _ _ h => h)
    intro cr u hu
    obtain ⟨rfl, hends⟩ := hu
    exact ⟨fun h => (by cases h), fun _ => hends⟩

end Callback

section Reads

-- Accepted headers, and at least one byte of the body behind them.
def BodyStarted (received : Bytes) : Prop :=
  ∃ i contentLength, find crlfcrlf (cstr received) = some i ∧
    acceptedLength (received.take i) = some contentLength ∧ i + 4 < received.length

theorem bodyStarted_iff {received : Bytes} {i contentLength : Nat}
    (hfind : find crlfcrlf (cstr received) = some i)
    (haccept : acceptedLength (received.take i) = some contentLength) :
    BodyStarted received ↔ i + 4 < received.length := by
  constructor
  · intro h
    obtain ⟨j, _, hother, -, hlen⟩ := h
    rw [hfind, Option.some.injEq] at hother
    rwa [hother]
  · exact fun hlen => ⟨i, contentLength, hfind, haccept, hlen⟩

-- A download between two reads, with a session from the first byte of the body on.
-- Without one the response buffer cannot be full, and a full read fits into it when
-- it is empty.
structure Downloading (start : App) (index : Nat) (received _buffer : Bytes) (s : Client App) : Prop where
  fetching : Fetching start s.app
  size : s.responseBuffer.length = tlsResponseBufferSize
  phase : AwaitingHeaders received (s.atIndex index) ∧ s.app.hasIapSession = false ∨
    index ≠ 0 ∧ ∃ i contentLength bodyBytes, find crlfcrlf (cstr received) = some i ∧
      acceptedLength (received.take i) = some contentLength ∧ i + 4 ≤ received.length ∧
      (s.app.hasIapSession = true ↔ i + 4 < received.length) ∧ InBody contentLength bodyBytes [] s

theorem Downloading.session_iff {start : App} {index : Nat} {received buffer : Bytes} {s : Client App}
    (h : Downloading start index received buffer s) :
    s.app.hasIapSession = true ↔ BodyStarted received := by
  rcases h.phase with ⟨hs, hidle⟩ | ⟨-, i, contentLength, _, hfind, haccept, -, hsession, -⟩
  · refine iff_of_false (by simp [hidle]) fun hstarted => ?_
    obtain ⟨i, _, hfind, -⟩ := hstarted
    have hpending := hs.pending
    rw [hfind] at hpending
    cases hpending
  · rw [hsession, bodyStarted_iff hfind haccept]

-- Wherever the task has to wait, or worse, an open session belongs to the flag.
def Backed (s : App) : Prop := s.hasIapSession = true → s.device.iapState.sessionOpen = true

theorem Fetching.backed {start s : App} (h : Fetching start s) : Backed s := fun hsession =>
  (h.session hsession).isOpen

theorem backed_of_idle {s : App} (h : s.hasIapSession = false) : Backed s := fun hsession => by
  rw [h] at hsession
  cases hsession

variable {start : App} {platform : Nat → FirmwareReplies} {valid : ValidRequest App}

theorem invokeBodyCallback_progress (hbody : valid.bodyCallback = firmwareBodyCallback platform)
    {s : Client App} (hs : Fetching start s.app) {n : Nat}
    (hbytes : 0 < n → s.responseBuffer.take (uint16 n) ≠ []) :
    wp (invokeBodyCallback valid n)
      (fun cr t => (cr = .continueReceiving → 0 < n ∧ Fetching start t.app ∧ t.app.hasIapSession = true) ∧
        (cr ≠ .continueReceiving → Ends start t.app))
      (fun _ t => Backed t.app) s := by
  rw [wp_invokeBodyCallback, hbody]
  simp only [firmwareBodyCallback, wp_bind, wp_get, wp_set]
  have hcount : Fetching start { s.app with nofCallbacks := s.app.nofCallbacks + 1 } :=
    { hs.toInAttempt.count _ with
      partialPage := hs.partialPage
      accepting := hs.accepting
      firmwareBuffer := hs.firmwareBuffer }
  exact wp_mono (iapHttpsFirmwareBodyCallback_progress (platform s.app.nofCallbacks) hcount hbytes)
    (fun _ _ ht => ht) (fun _ _ ht => backed_of_idle ht)

theorem httpsProcessBody_downloads (hmode : valid.responseMode = .streamBody)
    (hbody : valid.bodyCallback = firmwareBodyCallback platform) {contentLength bodyBytes index i : Nat}
    {content received buffer : Bytes} {s : Client App} (hs : InBody contentLength bodyBytes content s)
    (hfetching : Fetching start s.app) (hsize : s.responseBuffer.length = tlsResponseBufferSize)
    (hfind : find crlfcrlf (cstr received) = some i)
    (haccept : acceptedLength (received.take i) = some contentLength)
    (hempty : content = [] → s.app.hasIapSession = false ∧ i + 4 = received.length)
    (hstarted : content ≠ [] → i + 4 < received.length) :
    wp (httpsProcessBody valid)
      (fun continueReading t =>
        (continueReading = true → Downloading start (index + 1) received buffer t) ∧
        (continueReading = false → Ends start t.app))
      (fun _ t => Backed t.app) s := by
  rw [wp_httpsProcessBody_stream hmode hs]
  refine ⟨fun hnil => ⟨fun _ => ?_, fun h => by cases h⟩, fun hne => ?_⟩
  · obtain ⟨hidle, hlen⟩ := hempty hnil
    subst hnil
    have hsession : s.app.hasIapSession = true ↔ i + 4 < received.length :=
      iff_of_false (by simp [hidle]) (by omega)
    exact ⟨hfetching, hsize, .inr ⟨Nat.succ_ne_zero index, i, contentLength, bodyBytes, hfind, haccept, by omega,
      hsession, hs⟩⟩
  have hpos : 0 < content.length := List.length_pos_of_ne_nil hne
  have hfits : content.length ≤ tlsResponseBufferSize := hsize ▸ hs.buffer.length_le
  have hbytes : s.responseBuffer.take (uint16 content.length) ≠ [] := by
    apply List.ne_nil_of_length_pos
    rw [List.length_take, hsize]
    unfold uint16 tlsResponseBufferSize at *
    omega
  refine wp_mono (wp_and (invokeBodyCallback_progress hbody hfetching (fun _ => hbytes))
    (invokeBodyCallback_called valid content.length s)) ?_ (fun _ _ h => h.1)
  intro cr t ht
  obtain ⟨⟨hcontinue, hstop⟩, hcalled⟩ := ht
  refine ⟨fun hcr => ⟨fun h => (by cases h), fun _ => hstop hcr⟩, fun hcr => ?_⟩
  obtain ⟨-, hmore, hsession⟩ := hcontinue hcr
  refine ⟨fun _ => ?_, fun _ => ?_⟩
  · refine wp_mono (invokeBodyCallback_progress hbody hmore (fun h => absurd h (lt_irrefl 0))) ?_
      (fun _ _ h => h)
    intro answer u hu
    refine ⟨fun h => (by cases h), fun _ => ?_⟩
    by_cases hanswer : answer = .continueReceiving
    · exact absurd (hu.1 hanswer).1 (lt_irrefl 0)
    · exact hu.2 hanswer
  · refine ⟨fun _ => ⟨hmore, hcalled.buffer ▸ hsize, ?_⟩, fun h => by cases h⟩
    have hlen := hstarted hne
    exact .inr ⟨Nat.succ_ne_zero index, i, contentLength, bodyBytes, hfind, haccept, hlen.le,
      iff_of_true hsession hlen, (hs.congr hcalled.context hcalled.buffer).clear⟩

theorem httpsTlsCallback_downloads (hmode : valid.responseMode = .streamBody)
    (hbody : valid.bodyCallback = firmwareBodyCallback platform)
    (herror : valid.errorCallback = iapHttpsErrorCallback) {index : Nat} {received buffer : Bytes}
    {s : Client App} (fragment : Fragment) (h : Downloading start index received buffer s) :
    StepsTo (httpsTlsCallback valid) (Downloading start) (fun _ t => Ends start t.app)
      (fun _ _ t => Backed t.app) index received buffer fragment s := by
  have hsilent : ∀ error info (t : Client App), s.app.hasIapSession = false → t.app = s.app →
      wp (invokeErrorCallback valid error info)
        (fun _ u => (false = true → Downloading start (index + 1) (received ++ fragment.val)
            (store buffer 0 fragment.val) u) ∧ (false = false → Ends start u.app))
        (fun _ u => Backed u.app) t := by
    intro error info t hidle happ
    rw [wp_invokeErrorCallback, herror]
    refine ⟨fun h => (by cases h), fun _ => Ends.of_accepting ?_ ?_ ?_⟩
    · exact happ ▸ hidle
    · exact happ ▸ h.fetching.accepting
    · exact happ ▸ h.fetching.firmwareBuffer
  have hprocess : ∀ {contentLength bodyBytes i : Nat} {content : Bytes} {t : Client App},
      InBody contentLength bodyBytes content t → SameClient s t →
      find crlfcrlf (cstr (received ++ fragment.val)) = some i →
      acceptedLength ((received ++ fragment.val).take i) = some contentLength →
      (content = [] → s.app.hasIapSession = false ∧ i + 4 = (received ++ fragment.val).length) →
      (content ≠ [] → i + 4 < (received ++ fragment.val).length) →
      wp (httpsProcessBody valid)
        (fun continueReading u =>
          (continueReading = true → Downloading start (index + 1) (received ++ fragment.val)
            (store buffer 0 fragment.val) u) ∧ (continueReading = false → Ends start u.app))
        (fun _ u => Backed u.app) t := by
    intro contentLength bodyBytes i content t ht hst hfind haccept hempty hstarted
    rw [← hst.app] at hempty
    exact httpsProcessBody_downloads hmode hbody ht (hst.app ▸ h.fetching) (hst.bufferLen.trans h.size) hfind
      haccept hempty hstarted
  rcases h.phase with ⟨hs, hidle⟩ | ⟨hindex, i, contentLength, bodyBytes, hfind, haccept, hbound, -, hs⟩
  · apply wp_httpsTlsCallback_headers hs
    · exact fun _ => hsilent _ _ _ hidle (atIndex_same index s).app
    · intro _ t ht hst
      refine ⟨fun _ => ⟨hst.app ▸ h.fetching, hst.bufferLen.trans h.size, .inl ⟨?_, ?_⟩⟩, fun h => by cases h⟩
      · exact ht.later _
      · rw [hst.app, hidle]
    · intro _ i _ _ t hst _
      have hends : Ends start t.app :=
        hst.app ▸ Ends.of_accepting hidle h.fetching.accepting h.fetching.firmwareBuffer
      exact ⟨fun _ _ _ => ⟨fun h => (by cases h), fun _ => hends⟩,
        fun error info _ _ => hsilent error info t hidle hst.app⟩
    · intro _ _ _ _ _ _ _ t hst _
      have hbacked : Backed t.app := hst.app ▸ h.fetching.backed
      exact hbacked
    · intro _ i contentLength content hfind hbound haccept _ hlen t ht hst _
      refine hprocess ht hst hfind haccept (fun hnil => ⟨hidle, ?_⟩) (fun hne => ?_)
      · rw [hnil, List.length_nil] at hlen
        omega
      · have hpos := List.length_pos_of_ne_nil hne
        omega
  · apply wp_httpsTlsCallback_body hs hindex
    · intro hfull
      have hlen := fragment.property.2
      rw [h.size, List.length_nil] at hfull
      omega
    · intro _ t ht hst _
      have hpos := List.length_pos_of_ne_nil (fragment_ne_nil fragment)
      refine hprocess ht hst (find_headers_append hfind fragment.val) ?_ (fun hnil => ?_) (fun _ => ?_)
      · rwa [take_headers_append hfind]
      · exact absurd hnil (fragment_ne_nil fragment)
      · rw [List.length_append]
        omega

end Reads

section Steps

def UpdaterStep.isDownload : UpdaterStep → Bool
  | .checkForUpdate _ => false
  | .downloadImage _ _ => true

-- The connection of a download ends, or fails, behind the first byte of the body,
-- while the client still asks for more.
def UpdaterStep.cutOff (s : Updater) : UpdaterStep → Prop
  | .checkForUpdate _ => False
  | .downloadImage platform script =>
      ¬script.connect.Hangs s.tls ∧ readEnd script.request.reads ≠ .pending ∧
        ¬Refused (httpFirmwareDataRequest platform s.client.app) script.request ∧
        BodyStarted (fragments script.request.reads).flatten ∧
        ∃ valid staleResponse client,
          httpsValidateRequest (httpFirmwareDataRequest platform s.client.app) = .ok valid ∧
          writesAll script.request.writes valid.sentLength = true ∧
          script.request.mallocResponseBuffer = some staleResponse ∧
          feed (httpsTlsCallback valid) (fragments script.request.reads) 0
            (staleBlock staleResponse tlsResponseBufferSize)
            ({ s.client with app := s.client.app.newAttempt }.start valid) = .ok true client

-- Nothing interrupts a step: ESP-IDF takes the full pages, and the connection
-- stays up as long as it is needed.
def Uninterrupted (s : Updater) (step : UpdaterStep) : Prop :=
  ¬step.cutOff s ∧ wp step.run
    (fun _ t => ¬Rejects s.client.app.device t.client.app.device) (fun _ _ => True) s

-- The indicator is off when a step has returned, and stands for an open session of
-- a download wherever a step is held up.
def Accurate (s : Updater) (step : UpdaterStep) : Prop :=
  wp step.run (fun _ t => iapHttpsUpdateInProgress t.client.app = false)
    (fun _ t => iapHttpsUpdateInProgress t.client.app = true →
      t.client.app.device.iapState.sessionOpen = true ∧ step.isDownload = true) s

theorem off_of_accurate {s t : Updater} {step : UpdaterStep} (h : Along UpdaterStep.run Accurate [step] s)
    (hrun : step.run s = .ok ⟨⟩ t) : t.client.app.hasIapSession = false := by
  have haccurate := h.1
  unfold Accurate at haccurate
  have hoff := wp_ok haccurate hrun
  exact hoff

-- Between two steps.
structure Idling (s : Updater) : Prop where
  ready : Ready s.client.app
  idle : s.client.app.hasIapSession = false
  size : ∀ buffer, s.client.app.firmwareBuffer = some buffer → buffer.length = tlsResponseBufferSize

theorem iapHttpsCheckForUpdate_idle (script : Script) {s : Updater} (hs : Idling s) :
    wp (iapHttpsCheckForUpdate script)
      (fun _ t => t.client.app.hasIapSession = false ∧ t.client.app.firmwareBuffer = s.client.app.firmwareBuffer ∧
        t.client.app.device = s.client.app.device)
      (fun _ t => t.client.app.hasIapSession = false ∧ t.client.app.firmwareBuffer = s.client.app.firmwareBuffer ∧
        t.client.app.device = s.client.app.device) s := by
  refine iapHttpsCheckForUpdate_keeps (I := fun app => app.hasIapSession = false ∧
    app.firmwareBuffer = s.client.app.firmwareBuffer ∧ app.device = s.client.app.device) script s
    ⟨hs.idle, rfl, rfl⟩ ?_
  intro responseBuffer n app happ
  refine wp_mono (iapHttpsMetadataBodyCallback_frame responseBuffer n app) ?_ (fun _ _ h => h)
  intro _ t ht
  obtain ⟨_, _, _, rfl⟩ := ht
  exact happ

theorem Idling.request {s : Updater} (hs : Idling s) {platform : Nat → FirmwareReplies} {valid : ValidRequest App}
    (h : httpsValidateRequest (httpFirmwareDataRequest platform s.client.app) = .ok valid) :
    valid.responseMode = .streamBody ∧ valid.bodyCallback = firmwareBodyCallback platform ∧
      valid.errorCallback = iapHttpsErrorCallback ∧ valid.responseBuffer.length = tlsResponseBufferSize := by
  have hrequest := request_of_validate h
  simp only [httpFirmwareDataRequest, HttpRequest.mk.injEq, Option.some.injEq, true_and] at hrequest
  obtain ⟨-, -, hbuffer, herror, hmode, hbody⟩ := hrequest
  exact ⟨hmode.symm, hbody.symm, herror.symm, hs.size _ hbuffer⟩

-- The request that is cut off is the one that the download makes.
theorem cutOff_writes {s : Updater} {platform : Nat → FirmwareReplies} {script : Script}
    {valid : ValidRequest App}
    (h : httpsValidateRequest (httpFirmwareDataRequest platform s.client.app) = .ok valid)
    (hcut : (UpdaterStep.downloadImage platform script).cutOff s) :
    writesAll script.request.writes valid.sentLength = true := by
  obtain ⟨-, -, -, -, other, _, _, hother, hwrites, -⟩ := hcut
  rw [h, Except.ok.injEq] at hother
  rwa [hother]

theorem cutOff_feeds {s : Updater} {platform : Nat → FirmwareReplies} {script : Script}
    {valid : ValidRequest App} {staleResponse : Nat → UInt8}
    (h : httpsValidateRequest (httpFirmwareDataRequest platform s.client.app) = .ok valid)
    (hresponse : script.request.mallocResponseBuffer = some staleResponse)
    (hcut : (UpdaterStep.downloadImage platform script).cutOff s) :
    ∃ client, feed (httpsTlsCallback valid) (fragments script.request.reads) 0
      (staleBlock staleResponse tlsResponseBufferSize)
      ({ s.client with app := s.client.app.newAttempt }.start valid) = .ok true client := by
  obtain ⟨-, -, -, -, other, stale, client, hother, -, hstale, hfed⟩ := hcut
  rw [h, Except.ok.injEq] at hother
  rw [hresponse, Option.some.injEq] at hstale
  subst hother hstale
  exact ⟨client, hfed⟩

-- A download leaves the flag set if and only if it is interrupted.
theorem iapHttpsDownloadImage_progress (platform : Nat → FirmwareReplies) (script : Script) {s : Updater}
    (hs : Idling s) :
    wp (iapHttpsDownloadImage platform script)
      (fun _ t => (t.client.app.hasIapSession = true ↔ Rejects s.client.app.device t.client.app.device ∨
          (UpdaterStep.downloadImage platform script).cutOff s) ∧
        t.client.app.firmwareBuffer = s.client.app.firmwareBuffer)
      (fun _ t => Backed t.client.app ∧ ¬(UpdaterStep.downloadImage platform script).cutOff s) s := by
  simp only [iapHttpsDownloadImage, wp_bind, wp_onTls, wp_onClient, wp_onApp, wp_modify, wp_get, wp_pure]
  refine wp_mono (wifiTlsConnect_result script.connect s.tls) ?_
    (fun _ _ hhangs => ⟨backed_of_idle hs.idle, fun hcut => hcut.1 hhangs⟩)
  intro _ tls htls
  obtain ⟨-, hconnected⟩ := htls
  have hnone : ¬Rejects s.client.app.device s.client.app.device := Accepting.not_rejects (Follows.refl _ _)
  -- the two conditions for a download that its reads do not end
  have hquiet : ∀ (t : Updater), t.client.app = s.client.app.newAttempt →
      ¬(UpdaterStep.downloadImage platform script).cutOff s →
      (t.client.app.hasIapSession = true ↔ Rejects s.client.app.device t.client.app.device ∨
        (UpdaterStep.downloadImage platform script).cutOff s) ∧
      t.client.app.firmwareBuffer = s.client.app.firmwareBuffer := by
    intro t happ hcut
    rw [happ]
    exact ⟨iff_of_false (fun h => by cases h) (fun h => h.elim hnone hcut), rfl⟩
  show wp (httpsSendRequest (httpFirmwareDataRequest platform s.client.app) script.request) _ _ _
  apply wp_httpsSendRequest_ends
    (s := ⟨tls, { s.client with app := s.client.app.newAttempt }⟩)
    (I := fun _ => Downloading s.client.app.newAttempt)
    (F := fun _ _ t => Ends s.client.app.newAttempt t.app) (H := fun _ _ _ t => Backed t.app)
  · intro valid h buffer
    exact ⟨Fetching.start hs.ready, (hs.request h).2.2.2, .inl ⟨awaiting_start _, rfl⟩⟩
  · intro valid h index stream buffer fragment client hclient
    obtain ⟨hmode, hbody, herror, -⟩ := hs.request h
    exact httpsTlsCallback_downloads hmode hbody herror fragment hclient
  · intro hearly result _
    exact hquiet _ rfl fun hcut => hcut.2.2.1 (refused_of_returnsEarly hearly)
  · exact fun hrefused => ⟨backed_of_idle rfl, fun hcut => hcut.2.2.1 hrefused⟩
  · intro valid h hwrites
    have hcut : ¬(UpdaterStep.downloadImage platform script).cutOff s := by
      intro hcut
      rw [cutOff_writes h hcut] at hwrites
      cases hwrites
    exact ⟨fun tls _ => hquiet _ rfl hcut, fun e tls _ => ⟨backed_of_idle rfl, hcut⟩⟩
  · intro valid staleResponse h hrefused hwrites hresponse
    constructor
    · intro result tls bytes client _ hreturns
      cases hreturns with
      | stopped _ _ _ _ _ _ done fed =>
          refine ⟨done.stuck.trans ⟨.inl, fun hor => hor.resolve_right fun hcut => ?_⟩, done.firmwareBuffer⟩
          obtain ⟨other, hfed⟩ := cutOff_feeds h hresponse hcut
          cases fed.symm.trans hfed
      | ended _ _ hends processed _ pausing fed =>
          rw [processed] at pausing
          refine ⟨⟨fun hflag => .inr ?_, fun hor => ?_⟩, pausing.fetching.firmwareBuffer⟩
          · refine ⟨hconnected, ?_, hrefused, pausing.session_iff.mp hflag, valid, staleResponse, client, h, hwrites,
              hresponse, fed⟩
            rcases hends with ⟨heof, -⟩ | ⟨hfailed, -⟩
            · rw [heof]
              decide
            · rw [hfailed]
              decide
          · have hcut := hor.resolve_left pausing.fetching.accepting.not_rejects
            exact pausing.session_iff.mpr hcut.2.2.2.1
    · intro e tls bytes client _ hhalts
      cases hhalts with
      | halted _ _ _ _ _ halt fed =>
          refine ⟨halt, fun hcut => ?_⟩
          obtain ⟨other, hfed⟩ := cutOff_feeds h hresponse hcut
          cases fed.symm.trans hfed
      | blocked _ _ pending _ _ _ pausing _ =>
          exact ⟨pausing.fetching.backed, fun hcut => hcut.2.1 pending⟩

theorem UpdaterStep.progress (step : UpdaterStep) {s : Updater} (hs : Idling s) :
    wp step.run
      (fun _ t => (t.client.app.hasIapSession = true ↔
          Rejects s.client.app.device t.client.app.device ∨ step.cutOff s) ∧
        t.client.app.firmwareBuffer = s.client.app.firmwareBuffer)
      (fun _ t => (t.client.app.hasIapSession = true →
          t.client.app.device.iapState.sessionOpen = true ∧ step.isDownload = true) ∧ ¬step.cutOff s) s := by
  cases step with
  | checkForUpdate script =>
      apply wp_mono (iapHttpsCheckForUpdate_idle script hs)
      · intro _ t ht
        obtain ⟨hflag, hbuffer, hdevice⟩ := ht
        rw [hflag, hdevice]
        refine ⟨iff_of_false (fun h => by cases h) (fun h => ?_), hbuffer⟩
        exact h.elim (Accepting.not_rejects (Follows.refl _ _)) id
      · intro _ t ht
        obtain ⟨hflag, -⟩ := ht
        rw [hflag]
        exact ⟨fun h => (by cases h), id⟩
  | downloadImage platform script =>
      refine wp_mono (iapHttpsDownloadImage_progress platform script hs) (fun _ _ ht => ht) ?_
      intro _ t ht
      exact ⟨fun hflag => ⟨ht.1 hflag, rfl⟩, ht.2⟩

-- The indicator is right about a step if and only if nothing interrupts the step.
theorem accurate_iff_uninterrupted (step : UpdaterStep) {s : Updater} (hs : Idling s) :
    Accurate s step ↔ Uninterrupted s step := by
  have hprogress := step.progress hs
  constructor
  · intro haccurate
    have hflag : wp step.run (fun _ t => ¬Rejects s.client.app.device t.client.app.device ∧ ¬step.cutOff s)
        (fun _ _ => ¬step.cutOff s) s := by
      refine wp_mono (wp_and hprogress haccurate) ?_ (fun _ _ ht => ht.1.2)
      intro _ t ht
      obtain ⟨⟨hstuck, -⟩, hoff⟩ := ht
      have hoff : t.client.app.hasIapSession = false := hoff
      rw [hoff] at hstuck
      exact not_or.mp fun h => by cases hstuck.mpr h
    refine ⟨fun hcut => ?_, wp_mono hflag (fun _ _ ht => ht.1) (fun _ _ _ => trivial)⟩
    exact wp_contra hflag (wp_of_forall (fun _ _ h => h.2 hcut) (fun _ _ h => h hcut))
  · intro huninterrupted
    obtain ⟨hcut, haccepts⟩ := huninterrupted
    refine wp_mono (wp_and hprogress haccepts) ?_ (fun _ _ ht => ht.1.1)
    intro _ t ht
    obtain ⟨⟨hstuck, -⟩, hrejects⟩ := ht
    exact Bool.eq_false_iff.mpr fun hflag => (hstuck.mp hflag).elim hrejects hcut

theorem Idling.step (step : UpdaterStep) {s : Updater} (hs : Idling s) (hstep : Accurate s step) :
    wp step.run (fun _ t => Idling t) (fun _ _ => True) s := by
  refine wp_mono (wp_and (wp_and (step.progress hs) (ready_step step s hs.ready)) hstep) ?_
    (fun _ _ _ => trivial)
  intro _ t ht
  obtain ⟨⟨⟨-, hbuffer⟩, hready⟩, hflag⟩ := ht
  exact ⟨hready, hflag, fun buffer h => hs.size buffer (hbuffer ▸ h)⟩

theorem idling_start (partition : Partition) (config : IapHttpsConfig) (metadataBuffer firmwareBuffer : Malloc) :
    Idling (iapHttpsInit partition config metadataBuffer firmwareBuffer) := by
  refine ⟨ready_start partition config metadataBuffer firmwareBuffer, rfl, fun buffer h => ?_⟩
  obtain ⟨stale, -, rfl⟩ := Option.map_eq_some_iff.mp h
  exact length_staleBlock stale 4096

-- Over any history of checks and downloads.
theorem inProgress_accurate_iff (partition : Partition) (config : IapHttpsConfig)
    (metadataBuffer firmwareBuffer : Malloc) (steps : List UpdaterStep) :
    Along UpdaterStep.run Accurate steps (iapHttpsInit partition config metadataBuffer firmwareBuffer) ↔
      Along UpdaterStep.run Uninterrupted steps
        (iapHttpsInit partition config metadataBuffer firmwareBuffer) :=
  along_congr (I := Idling) UpdaterStep.run (fun step _ hs => accurate_iff_uninterrupted step hs)
    (fun step _ hs hstep => hs.step step hstep) steps
    (idling_start partition config metadataBuffer firmwareBuffer)

end Steps

-- The server closes the connection behind the first of two bytes.
def cutDownload : UpdaterStep :=
  .downloadImage (fun _ => exampleFirmwareReplies ⟨ESP_OK, ESP_OK, ESP_OK⟩)
    (exampleScript exampleConnect [.data cutResponse, .eof])

-- The session is still open, on the device too, and the rest is as it was.
@[mk_iff]
structure SessionLeft (autoReboot : Bool) (s : Updater) : Prop where
  hasIapSession : s.client.app.hasIapSession = true
  sessionOpen : s.client.app.device.iapState.sessionOpen = true
  host : s.client.app.config.serverHostName = ascii "www.classycode.io"
  metadataPath : cstr s.client.app.config.serverMetadataPath = ascii "/ota.txt"
  firmwarePath : cstr s.client.app.config.serverFirmwarePath = ascii "/ota.bin"
  autoReboot : s.client.app.config.autoReboot = autoReboot
  metadataBuffer : s.client.app.metadataBuffer.isSome = true
  firmwareBuffer : s.client.app.firmwareBuffer.isSome = true
  boot : s.client.app.device.bootPartition = ⟨"factory", 0x10000⟩

instance (autoReboot : Bool) (s : Updater) : Decidable (SessionLeft autoReboot s) :=
  decidable_of_iff _ (sessionLeft_iff autoReboot s).symm

theorem cutDownload_leaves_session (autoReboot : Bool) :
    ∃ s, cutDownload.run (exampleUpdater ⟨"factory", 0x10000⟩ autoReboot) = .ok ⟨⟩ s ∧ SessionLeft autoReboot s := by
  have hrun : ∃ result s, cutDownload.run (exampleUpdater ⟨"factory", 0x10000⟩ autoReboot) = .ok result s ∧
      SessionLeft autoReboot s := by
    apply exists_ok_of_wp
    cases autoReboot with
    | false => decide +kernel
    | true => decide +kernel
  obtain ⟨_, h⟩ := hrun
  exact h

theorem inProgress_not_accurate :
    ¬∀ (partition : Partition) (config : IapHttpsConfig) (metadataBuffer firmwareBuffer : Malloc)
      (steps : List UpdaterStep), Along UpdaterStep.run Accurate steps
        (iapHttpsInit partition config metadataBuffer firmwareBuffer) := by
  intro h
  obtain ⟨t, hrun, ht⟩ := cutDownload_leaves_session false
  have hflag := ht.hasIapSession
  rw [off_of_accurate (h _ _ _ _ _) hrun] at hflag
  cases hflag

end Esp32Ota
