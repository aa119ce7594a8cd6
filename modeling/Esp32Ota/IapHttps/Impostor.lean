import Esp32Ota.IapHttps.Announced
import Esp32Ota.IapHttps.Check

-- What comes of a server that is never accepted.
namespace Esp32Ota

open CLib Halting

theorem Silent.refl (s : Tls) : Silent s s := ⟨[], rfl, List.forall_mem_nil _⟩

theorem Silent.trans {s t u : Tls} (hst : Silent s t) (htu : Silent t u) : Silent s u := by
  obtain ⟨events, hevents, hquiet⟩ := hst
  obtain ⟨later, hlater, hquiet'⟩ := htu
  exact ⟨later ++ events, by rw [hlater, hevents, List.append_assoc],
    fun event h => (List.mem_append.mp h).elim (hquiet' event) (hquiet event)⟩

-- The check has connected in vain.
structure Rejected (s t : Updater) : Prop where
  client : t.client = s.client
  silent : Silent s.tls t.tls

theorem iapHttpsCheckForUpdate_rejects {script : Script} {s : Updater} (h : ¬script.connect.Accepts s.tls) :
    wp (iapHttpsCheckForUpdate script) (fun _ t => Rejected s t) (fun _ t => Rejected s t) s := by
  simp only [iapHttpsCheckForUpdate, wp_bind, wp_onTls, wp_ite, wp_get, wp_pure]
  refine wp_mono (wp_and (wifiTlsConnect_spec script.connect s.tls) (wifiTlsConnect_result script.connect s.tls))
    (fun result tls hboth => ?_) (fun _ _ hboth => ⟨rfl, hboth.1⟩)
  obtain ⟨hconnected, hresult, -⟩ := hboth
  exact ⟨fun hzero => absurd (hresult.mp hzero) h, fun _ => ⟨rfl, hconnected.silent⟩⟩

-- The step does not bring a check that is accepted.
def SystemStep.Rejects (s : System) : SystemStep → Prop
  | .task replies => s.point = .checkForUpdate → ¬replies.script.connect.Accepts s.updater.tls
  | _ => True

-- No download is on its way.
structure Quiet (s : System) : Prop where
  idle : s.updater.client.app.fwupDownloadImage = false
  point : s.point ≠ .downloadImage ∧ s.point ≠ .downloadHeldUp ∧ s.point ≠ .clearDownloadImage
  read : ∀ bits, s.point = .waitForWifiAgain bits → bits.fwupDownloadImage = false

-- The application of the module with its device is as it was, and no data has been exchanged.
structure KeptOut (start s : System) : Prop extends Quiet s where
  app : s.updater.client.app = start.updater.client.app
  silent : Silent start.updater.tls s.updater.tls
  documents : s.documents = start.documents

section Steps

variable {start s t : System}

theorem Quiet.keptOut (h : Quiet s) : KeptOut s s := ⟨h, rfl, Silent.refl _, rfl⟩

theorem KeptOut.left (hs : KeptOut start s) (h : Left s t) : KeptOut start t := by
  obtain ⟨⟨hidle, hpoint, hread⟩, happ, hsilent, hdocuments⟩ := hs
  rw [← h.updater] at hidle happ hsilent
  rw [← h.point] at hpoint hread
  rw [← h.documents] at hdocuments
  exact ⟨⟨hidle, hpoint, hread⟩, happ, hsilent, hdocuments⟩

-- Where the module is left alone, the task may move to any place but those of a download.
theorem KeptOut.moves (hs : KeptOut start s) (hupdater : t.updater = s.updater) (hdocuments : t.documents = s.documents)
    (hpoint : t.point ≠ .downloadImage ∧ t.point ≠ .downloadHeldUp ∧ t.point ≠ .clearDownloadImage)
    (hread : ∀ bits, t.point = .waitForWifiAgain bits → bits.fwupDownloadImage = false) : KeptOut start t := by
  obtain ⟨⟨hidle, -, -⟩, happ, hsilent, hsame⟩ := hs
  rw [← hupdater] at hidle happ hsilent
  exact ⟨⟨hidle, hpoint, hread⟩, happ, hsilent, hdocuments.trans hsame⟩

theorem KeptOut.goes {point : TaskPoint} (h : Goes s point) (hs : KeptOut start s) :
    KeptOut start { s with point } := by
  cases h with
  | stays => exact hs
  | connected => exact hs.moves rfl rfl (by simp) (by simp)
  | delayed => exact hs.moves rfl rfl (by simp) (by simp)
  | wakes =>
      refine hs.moves rfl rfl (by simp) fun bits hbits => ?_
      rw [← TaskPoint.waitForWifiAgain.inj hbits]
      exact hs.idle
  | download hpoint hbit => exact absurd hbit (by rw [hs.read _ hpoint]; exact Bool.false_ne_true)
  | sleeps => exact hs.moves rfl rfl (by simp) (by simp)

-- A check that is rejected has no document and does not touch the application.
theorem callCheckForUpdate_keepsOut {script : Script} (h : ¬script.connect.Accepts s.updater.tls)
    (hpoint : s.point = .checkForUpdate) (hs : KeptOut start s) :
    wp (callCheckForUpdate script) (fun _ t => KeptOut start t) (fun _ t => KeptOut start t) s := by
  have hrejects := iapHttpsCheckForUpdate_rejects (s := { s.updater with client.events := [] }) h
  simp only [callCheckForUpdate, wp_bind, wp_get, wp_set, wp_callUpdater]
  have hnone : documents (final (iapHttpsCheckForUpdate script)
      { s.updater with client.events := [] }).client.events ++ s.documents = s.documents := by
    rw [(final_of_wp hrejects).client]
    rfl
  rw [hnone]
  have hkept : ∀ (updater : Updater) (point : TaskPoint), Rejected { s.updater with client.events := [] } updater →
      point ∈ [.prepareTimer, .checkHeldUp, .checkForUpdate] → KeptOut start { s with updater, point } := by
    intro updater point hupdater hafter
    have happ : updater.client.app = s.updater.client.app := by rw [hupdater.client]
    simp only [List.mem_cons, List.not_mem_nil, or_false] at hafter
    refine ⟨⟨by rw [happ]; exact hs.idle, ?_, ?_⟩, happ.trans hs.app, hs.silent.trans hupdater.silent, hs.documents⟩
    · rcases hafter with rfl | rfl | rfl <;> simp
    · rcases hafter with rfl | rfl | rfl <;> simp
  refine wp_mono hrejects (fun _ updater hupdater => hkept updater _ hupdater (by simp)) (fun _ updater hupdater => ?_)
  exact ⟨fun _ => hkept updater _ hupdater (by simp), fun _ => hkept updater s.point hupdater (by simp [hpoint])⟩

theorem KeptOut.step {step : SystemStep} (hs : KeptOut start s) (h : step.Rejects s) :
    wp step.run (fun _ t => KeptOut start t) (fun _ t => KeptOut start t) s := by
  by_cases htask : ∃ replies, step = .task replies
  · obtain ⟨replies, rfl⟩ := htask
    obtain ⟨hdownload, -, hclear⟩ := hs.point
    apply wp_iapHttpsTask_calls replies
    · exact fun point hgoes => hs.goes hgoes
    · exact fun bits _ _ => hs.moves rfl rfl (by simp) (by simp)
    · exact fun hpoint => callCheckForUpdate_keepsOut (h hpoint) hpoint hs
    · exact fun hpoint => absurd hpoint hdownload
    · exact fun hpoint => absurd hpoint hclear
    · intro _ timers starts _
      refine hs.moves rfl rfl ?_ ?_
      · cases starts <;> simp
      · cases starts <;> simp
    · exact fun _ => hs.moves rfl rfl (by simp) (by simp)
    · exact fun _ => hs.moves rfl rfl (by simp) (by simp)
    · exact fun _ => hs.moves rfl rfl (by simp) (by simp)
  · have hleaves := (SystemStep.leaves (s := s) (not_exists.mp htask)).1
    exact wp_mono hleaves (fun _ t ht => hs.left ht) (fun _ _ hfalse => hfalse.elim)

theorem quiet_start (partition : Partition) (config : IapHttpsConfig) (metadataBuffer firmwareBuffer : Malloc)
    (timer : TimerReplies) : Quiet (System.start partition config metadataBuffer firmwareBuffer timer) where
  idle := rfl
  point := by simp [System.start]
  read := fun _ h => by cases h

end Steps

end Esp32Ota
