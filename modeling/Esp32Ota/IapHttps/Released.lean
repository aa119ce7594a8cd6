import Esp32Ota.IapHttps.Step

-- When the TLS connection of a check or a download is released.
namespace Esp32Ota

open CLib Halting

-- Disconnected, and every socket opened so far is closed.
structure Released (s : Tls) : Prop where
  isValid : s.isValid = false
  closed : s.openSockets = []

-- The descriptor of the context is that of every open socket.
def Attached (s : Tls) : Prop := ∀ socket ∈ s.openSockets, s.serverFd = some socket

theorem Released.attached {s : Tls} (h : Released s) : Attached s := by
  intro socket hsocket
  rw [h.closed] at hsocket
  cases hsocket

-- The next connect loses no socket and sets the SSL context up afresh.
theorem Released.fresh {s : Tls} (h : Released s) :
    s.resumes = false ∧ ∀ socket ∈ s.openSockets, s.serverFd ≠ some socket := by
  refine ⟨by simp [Tls.resumes, h.isValid], fun socket hsocket => ?_⟩
  rw [h.closed] at hsocket
  cases hsocket

section Connection

theorem wifiTlsDisconnect_releases {s : Tls} (hs : Attached s) :
    wp wifiTlsDisconnect (fun _ t => Released t) (fun _ _ => True) s := by
  rw [wp_wifiTlsDisconnect]
  refine ⟨rfl, List.filter_eq_nil_iff.mpr fun socket hsocket => ?_⟩
  simp [hs socket hsocket]

-- An accepted connect holds its socket, a failed one holds nothing.
def Settled (result : Int) (t : Tls) : Prop :=
  (result = 0 → Attached t) ∧ (result ≠ 0 → Released t)

theorem Released.settled {result : Int} {t : Tls} (h : Released t) (hresult : result ≠ 0)
    (trace : List TlsEvent) : Settled result { t with trace } :=
  ⟨fun hzero => absurd hzero hresult, fun _ => ⟨h.isValid, h.closed⟩⟩

theorem wifiTlsConnect_releases (replies : ConnectReplies) {s : Tls} (hs : Released s) :
    wp (wifiTlsConnect replies) (fun result t => Settled result t) (fun _ _ => True) s := by
  simp only [wifiTlsConnect, wifiTlsStartSession, wp_bind, wp_ite, wp_pure, wp_modify, wp_tlsLog,
    wp_mbedtlsNetConnect, wp_wifiTlsResetContext]
  refine wp_mono (wifiTlsInitContext_spec replies s) ?_ (fun _ _ _ => trivial)
  intro initResult u hinit
  have hclosed : u.openSockets = [] := by
    cases hinit with
    | kept _ _ heq => rw [heq, hs.closed]
    | initialised _ _ heq => rw [heq]; exact hs.closed
    | failed _ _ heq => rw [heq]; exact hs.closed
  refine ⟨fun hfail => ?_, fun _ => ⟨fun _ => ?_, fun _ => ?_⟩⟩
  · have hinvalid : u.isValid = false := by
      cases hinit with
      | kept _ hresult => exact absurd hresult hfail
      | initialised _ hresult => exact absurd hresult hfail
      | failed _ _ heq => rw [heq]
    exact Released.settled ⟨hinvalid, hclosed⟩ hfail _
  · exact ⟨fun h => absurd h (by decide), fun _ => ⟨rfl, hclosed⟩⟩
  refine wp_mono (wifiTlsHandshake_spec replies.handshake _) ?_ (fun _ _ _ => trivial)
  intro handshakeResult v hshake
  have hattached : Attached v := by
    have hsocket : v.serverFd = some u.nextSocket ∧ v.openSockets = [u.nextSocket] := by
      cases hshake with
      | resumed _ _ heq => simp [heq, hclosed]
      | completed _ _ heq => simp [heq, hclosed]
      | failed _ _ heq => simp [heq, hclosed]
    intro socket hmem
    rw [hsocket.2, List.mem_singleton] at hmem
    rw [hsocket.1, hmem]
  have hfail : ∀ trace, wp wifiTlsDisconnect
      (fun _ t => Settled (-1) { t with trace := .connectReturned (-1) :: t.trace })
      (fun _ _ => True) { v with trace } := fun trace =>
    wp_mono (wifiTlsDisconnect_releases (s := { v with trace }) hattached)
      (fun _ _ ht => ht.settled (by decide) _) (fun _ _ _ => trivial)
  refine ⟨fun _ => hfail _, fun _ => ⟨fun _ => hfail _, fun _ => ?_⟩⟩
  cases wifiTlsCertPinning replies.pinning with
  | none => trivial
  | some pinningResult =>
      simp only [wp_bind, wp_tlsLog, wp_ite, wp_pure]
      exact ⟨fun _ => hfail _, fun _ => ⟨fun _ => hattached, fun h => absurd rfl h⟩⟩

theorem wifiTlsWriteLoop_releases (rets : List Int) (request : Bytes) {s : Tls} (hs : Attached s) :
    wp (wifiTlsWriteLoop rets request) (fun written t => if written then Attached t else Released t)
      (fun _ _ => True) s := by
  induction rets generalizing request s with
  | nil =>
      simp only [wifiTlsWriteLoop, wp_bind, wp_ite, wp_pure, wp_tlsLog, wp_throw, ite_true]
      exact ⟨fun _ => hs, fun _ => trivial⟩
  | cons ret rets ih =>
      simp only [wifiTlsWriteLoop, wp_bind, wp_ite, wp_pure, wp_tlsLog, wp_throw, ite_true]
      refine ⟨fun _ => hs, fun _ => ⟨fun _ => ⟨fun _ => trivial, fun _ => ih _ hs⟩,
        fun _ => ⟨fun _ => ih _ hs, fun _ => ?_⟩⟩⟩
      exact wp_mono (wifiTlsDisconnect_releases (s := { s with trace := .sslWrite :: s.trace }) hs)
        (fun _ _ ht => by simpa using ht) (fun _ _ h => h)

variable {σ : Type} (callback : Nat → Bytes → Nat → EStateM Halt σ Bool)

-- However reading ends, the connection is given up.
theorem wifiTlsReadLoop_releases (reads : List ReadResult) (index : Nat) (buffer : Bytes) {s : Conn σ}
    (hs : Attached s.tls) :
    wp (wifiTlsReadLoop callback reads index buffer) (fun _ t => Released t.tls) (fun _ _ => True) s := by
  have hend : ∀ (client : σ) (trace : List TlsEvent), wp (onTls wifiTlsDisconnect)
      (fun _ t => Released t.tls) (fun _ _ => True) ⟨{ s.tls with trace }, client⟩ := by
    intro client trace
    rw [wp_onTls]
    exact wifiTlsDisconnect_releases (s := { s.tls with trace }) hs
  induction reads generalizing index buffer s with
  | nil => exact trivial
  | cons read reads ih =>
      unfold wifiTlsReadLoop
      rw [wp_bind, wp_onTls, wp_tlsLog]
      cases read with
      | eof => exact hend s.client _
      | error _ => exact hend s.client _
      | wantRead => exact ih index buffer (s := { s with tls := { s.tls with trace := _ } }) hs hend
      | wantWrite => exact ih index buffer (s := { s with tls := { s.tls with trace := _ } }) hs hend
      | data fragment =>
          simp only [wp_bind, wp_onTls, wp_tlsLog, wp_onClient]
          refine wp_of_forall (fun continueReading client => ?_) (fun _ _ => trivial)
          cases continueReading with
          | false => exact hend client _
          | true => exact ih _ _ (s := ⟨{ s.tls with trace := _ }, client⟩) hs hend

end Connection

section Request

variable {α : Type} {request : HttpRequest α} {replies : RequestReplies} {s : Conn (Client α)}

-- A request that is not refused before it is written ends with the connection.
theorem httpsSendRequest_releases (hs : Attached s.tls)
    (h : ReturnsEarly request replies → Released s.tls) :
    wp (httpsSendRequest request replies) (fun _ t => Released t.tls) (fun _ _ => True) s := by
  apply wp_httpsSendRequest (fun hearly _ _ => h hearly) (fun _ _ => trivial)
  intro valid _ _ stale staleResponse _ _
  simp only [wifiTlsSendRequest, wp_bind, wp_onTls, wp_ite, wp_pure]
  refine wp_mono (wifiTlsWriteLoop_releases replies.writes _ hs) ?_ (fun _ _ _ => trivial)
  intro written tls htls
  refine ⟨fun hwritten => ?_, fun hwritten => ?_⟩
  · rw [if_pos hwritten] at htls
    exact wifiTlsReadLoop_releases (httpsTlsCallback valid) replies.reads 0 _
      (s := ⟨tls, s.client.start valid⟩) htls
  · rw [if_neg hwritten] at htls
    exact htls

theorem httpsSendRequest_early (h : ReturnsEarly request replies) :
    wp (httpsSendRequest request replies) (fun _ t => t = s) (fun _ _ => False) s :=
  wp_httpsSendRequest (fun _ _ _ => rfl) (fun hnot => absurd h hnot)
    fun _ _ hnot => absurd (refused_of_returnsEarly h) hnot

end Request

section Steps

-- The request of an accepted connect is given up before it is written.
def UpdaterStep.leaks (s : Updater) : UpdaterStep → Prop
  | .checkForUpdate script =>
      script.connect.Accepts s.tls ∧ ReturnsEarly (httpMetadataRequest s.client.app) script.request
  | .downloadImage platform script =>
      script.connect.Accepts s.tls ∧
        ReturnsEarly (httpFirmwareDataRequest platform s.client.app) script.request

theorem wifiTlsConnect_settles (replies : ConnectReplies) {s : Tls} (hs : Released s) :
    wp (wifiTlsConnect replies) (fun result t => (result = 0 ↔ replies.Accepts s) ∧ Settled result t)
      (fun _ _ => replies.Hangs s) s :=
  wp_mono (wp_and (wifiTlsConnect_result replies s) (wifiTlsConnect_releases replies hs))
    (fun _ _ h => ⟨h.1.1, h.2⟩) (fun _ _ h => h.1)

theorem wifiTlsConnect_accepted {replies : ConnectReplies} {s : Tls} (h : replies.Accepts s) :
    wp (wifiTlsConnect replies) (fun result t => result = 0 ∧ t.isValid = true) (fun _ _ => False) s := by
  refine wp_mono (wp_and (wifiTlsConnect_result replies s) (wifiTlsConnect_spec replies s)) ?_
    (fun _ _ hpost => h.not_hangs hpost.1)
  intro result t hpost
  obtain ⟨⟨hresult, -⟩, hconnected⟩ := hpost
  have hzero := hresult.mpr h
  refine ⟨hzero, ?_⟩
  cases hconnected with
  | accepted _ _ _ valid => exact valid
  | failed _ hne => exact absurd hzero hne

theorem UpdaterStep.releases (step : UpdaterStep) {s : Updater} (hs : Released s.tls)
    (hstep : ¬step.leaks s) : wp step.run (fun _ t => Released t.tls) (fun _ _ => True) s := by
  cases step with
  | checkForUpdate script =>
      simp only [UpdaterStep.run, iapHttpsCheckForUpdate, wp_bind, wp_onTls, wp_ite, wp_get, wp_pure]
      refine wp_mono (wifiTlsConnect_settles script.connect hs) ?_ (fun _ _ _ => trivial)
      intro tlsResult tls htls
      obtain ⟨hresult, hheld, hfailed⟩ := htls
      refine ⟨fun hzero => ?_, hfailed⟩
      exact httpsSendRequest_releases (s := { s with tls }) (hheld hzero)
        fun hearly => absurd ⟨hresult.mp hzero, hearly⟩ hstep
  | downloadImage platform script =>
      simp only [UpdaterStep.run, iapHttpsDownloadImage, wp_bind, wp_onTls, wp_onClient, wp_onApp, wp_modify,
        wp_get, wp_pure]
      refine wp_mono (wifiTlsConnect_settles script.connect hs) ?_ (fun _ _ _ => trivial)
      intro tlsResult tls htls
      obtain ⟨hresult, hheld, hfailed⟩ := htls
      by_cases hzero : tlsResult = 0
      · exact httpsSendRequest_releases (s := ⟨tls, { s.client with app := s.client.app.newAttempt }⟩)
          (hheld hzero) fun hearly => absurd ⟨hresult.mp hzero, hearly⟩ hstep
      · exact httpsSendRequest_releases (s := ⟨tls, { s.client with app := s.client.app.newAttempt }⟩)
          (hfailed hzero).attached fun _ => hfailed hzero

-- The other way round: a step that leaks returns with a valid context.
theorem UpdaterStep.leaks_valid (step : UpdaterStep) {s : Updater} (hstep : step.leaks s) :
    wp step.run (fun _ t => t.tls.isValid = true) (fun _ _ => False) s := by
  cases step with
  | checkForUpdate script =>
      obtain ⟨haccepts, hearly⟩ := hstep
      simp only [UpdaterStep.run, iapHttpsCheckForUpdate, wp_bind, wp_onTls, wp_ite, wp_get, wp_pure]
      refine wp_mono (wifiTlsConnect_accepted haccepts) ?_ (fun _ _ h => h)
      intro tlsResult tls htls
      obtain ⟨hzero, hvalid⟩ := htls
      refine ⟨fun _ => ?_, fun hne => absurd hzero hne⟩
      refine wp_mono (httpsSendRequest_early (s := { s with tls }) hearly) ?_ (fun _ _ h => h)
      intro _ t ht
      rw [ht, hvalid]
  | downloadImage platform script =>
      obtain ⟨haccepts, hearly⟩ := hstep
      simp only [UpdaterStep.run, iapHttpsDownloadImage, wp_bind, wp_onTls, wp_onClient, wp_onApp, wp_modify,
        wp_get, wp_pure]
      refine wp_mono (wifiTlsConnect_accepted haccepts) ?_ (fun _ _ h => h)
      intro tlsResult tls htls
      refine wp_mono (httpsSendRequest_early
        (s := ⟨tls, { s.client with app := s.client.app.newAttempt }⟩) hearly) ?_ (fun _ _ h => h)
      intro _ t ht
      rw [ht, htls.2]

-- Every check and every download of a run releases its connection exactly if no
-- step of the run gives up its request with the connection up.
theorem released_iff (partition : Partition) (config : IapHttpsConfig)
    (metadataBuffer firmwareBuffer : Malloc) (steps : List UpdaterStep) :
    (∀ n, wp (run UpdaterStep.run (steps.take n))
      (fun _ t => Released t.tls ∧ t.tls.resumes = false ∧
        ∀ socket ∈ t.tls.openSockets, t.tls.serverFd ≠ some socket)
      (fun _ _ => True) (iapHttpsInit partition config metadataBuffer firmwareBuffer)) ↔
      Along UpdaterStep.run (fun s step => ¬step.leaks s) steps
        (iapHttpsInit partition config metadataBuffer firmwareBuffer) := by
  have hinit : Released (iapHttpsInit partition config metadataBuffer firmwareBuffer).tls := ⟨rfl, rfl⟩
  refine run_iff_along UpdaterStep.run (R := fun _ _ => True) (I := fun s : Updater => Released s.tls)
    (fun step s hs _ hstep => step.releases hs hstep) ?_ (fun _ h => ⟨h, h.fresh⟩) steps _ hinit
    (along_true UpdaterStep.run steps _)
  intro step s _ hstep
  refine wp_mono (step.leaks_valid (not_not.mp hstep)) (fun _ t ht h => ?_) (fun _ _ h => h.elim)
  have := h.1.isValid
  simp [ht] at this

end Steps

-- The server announces version 2 without a path for it.
def emptyPathResponse : Fragment :=
  ⟨ascii "HTTP/1.1 200 OK\r\nContent-Length: 16\r\n\r\nVERSION=2\nFILE=\n", by decide⟩

def emptyPathSteps : List UpdaterStep :=
  [.checkForUpdate (exampleScript exampleConnect [.data emptyPathResponse]),
    exampleDownload exampleConnect ⟨ESP_OK, ESP_OK, ESP_OK⟩]

theorem emptyPath_keeps_connection :
    ∃ t, run UpdaterStep.run emptyPathSteps (iapHttpsInit ⟨"factory", 0x10000⟩ (exampleConfig false)
      (some fun _ => 0) (some fun _ => 0)) = .ok ⟨⟩ t ∧ t.tls.isValid = true := by
  obtain ⟨_, h⟩ := exists_ok_of_wp (x := run UpdaterStep.run emptyPathSteps)
    (s := iapHttpsInit ⟨"factory", 0x10000⟩ (exampleConfig false) (some fun _ => 0) (some fun _ => 0))
    (Q := fun _ t => t.tls.isValid = true) (by decide +kernel)
  exact h

theorem connection_not_released :
    ¬∀ (partition : Partition) (config : IapHttpsConfig) (metadataBuffer firmwareBuffer : Malloc)
      (steps : List UpdaterStep) (t : Updater), run UpdaterStep.run steps
        (iapHttpsInit partition config metadataBuffer firmwareBuffer) = .ok ⟨⟩ t → Released t.tls := by
  intro h
  obtain ⟨t, hrun, hvalid⟩ := emptyPath_keeps_connection
  have hinvalid := (h _ _ _ _ _ t hrun).isValid
  simp [hvalid] at hinvalid

end Esp32Ota
