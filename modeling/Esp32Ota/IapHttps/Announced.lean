import Esp32Ota.IapHttps.Task

-- Which document a download goes back to.
namespace Esp32Ota

open CLib Halting

-- The download bit stands for what the latest document has announced, and the firmware
-- is requested under the bit only.
structure Justified (s : System) : Prop where
  announced : s.updater.client.app.fwupDownloadImage = true →
    ∃ document earlier, s.documents = document :: earlier ∧
      Announces document s.updater.client.app.config.currentSoftwareVersion
        (cstr s.updater.client.app.config.serverFirmwarePath)
  requested : s.point = .downloadImage ∨ s.point = .downloadHeldUp →
    s.updater.client.app.fwupDownloadImage = true

-- The bits that the task has read tell the truth about the download bit, which no
-- check finds set.
structure Ordered (s : System) : Prop extends Justified s where
  read : ∀ bits, s.point = .waitForWifiAgain bits →
    bits.fwupDownloadImage = s.updater.client.app.fwupDownloadImage
  check : s.point = .checkForUpdate → s.updater.client.app.fwupDownloadImage = false

section Steps

variable {s t : System}

-- The other processes leave all of it alone.
theorem Ordered.moves (hs : Ordered s) (hupdater : t.updater = s.updater) (hdocuments : t.documents = s.documents)
    (hpoint : t.point = s.point) : Ordered t := by
  obtain ⟨⟨hannounced, hrequested⟩, hread, hcheck⟩ := hs
  constructor
  · constructor
    · rwa [hupdater, hdocuments]
    · rwa [hupdater, hpoint]
  · rwa [hupdater, hpoint]
  · rwa [hupdater, hpoint]

-- So does the task at most of its points.
theorem Ordered.leaves (hs : Ordered s) (hupdater : t.updater = s.updater)
    (hdocuments : t.documents = s.documents)
    (hpoint : ∀ bits, t.point ≠ .waitForWifiAgain bits ∧ t.point ≠ .checkForUpdate ∧
      t.point ≠ .downloadImage ∧ t.point ≠ .downloadHeldUp) : Ordered t := by
  obtain ⟨-, hcheck, hdownload, hheldUp⟩ := hpoint ⟨false, false⟩
  constructor
  · constructor
    · have hannounced := hs.announced
      rwa [← hupdater, ← hdocuments] at hannounced
    · exact fun h => (h.elim hdownload hheldUp).elim
  · exact fun bits h => absurd h (hpoint bits).1
  · exact fun h => absurd h hcheck

theorem Goes.ordered {point : TaskPoint} (h : Goes s point) (hs : Ordered s) : Ordered { s with point } := by
  cases h with
  | stays => exact hs
  | connected => exact hs.leaves rfl rfl (by simp)
  | delayed => exact hs.leaves rfl rfl (by simp)
  | wakes =>
      refine ⟨⟨hs.announced, by simp⟩, fun bits h => ?_, by simp⟩
      rw [TaskPoint.waitForWifiAgain.injEq] at h
      rw [← h]
      rfl
  | download hpoint hbit => exact ⟨⟨hs.announced, fun _ => (hs.read _ hpoint) ▸ hbit⟩, by simp, by simp⟩
  | sleeps => exact hs.leaves rfl rfl (by simp)

theorem SameOrders.justified (hs : Justified s) {updater : Updater}
    (h : SameOrders s.updater.client.app updater.client.app) : Justified { s with updater } := by
  obtain ⟨hannounced, hrequested⟩ := hs
  rw [← h.fwupDownloadImage, ← h.config] at hannounced
  rw [← h.fwupDownloadImage] at hrequested
  exact ⟨hannounced, hrequested⟩

theorem Checked.announced_last {updater : Updater} (h : Checked s.updater.client.app updater.client)
    (hbit : updater.client.app.fwupDownloadImage = true) :
    ∃ document earlier, documents updater.client.events ++ s.documents = document :: earlier ∧
      Announces document updater.client.app.config.currentSoftwareVersion
        (cstr updater.client.app.config.serverFirmwarePath) := by
  obtain ⟨document, rest, hdocuments, hannounces⟩ := h.announced hbit
  refine ⟨document, rest ++ s.documents, by rw [hdocuments, List.cons_append], ?_⟩
  rwa [h.currentSoftwareVersion]

theorem iapHttpsTask_ordered (replies : TaskReplies) (hs : Ordered s) :
    wp (iapHttpsTask replies) (fun _ t => Ordered t) (fun _ t => Justified t) s := by
  apply wp_iapHttpsTask replies
  · exact fun point h => h.ordered hs
  · intro bits hpoint hbit
    exact ⟨⟨hs.announced, by simp⟩, by simp, fun _ => (hs.read bits hpoint) ▸ hbit⟩
  · intro hpoint updater h
    have hlast := fun hbit => (h (hs.check hpoint)).announced_last hbit
    constructor
    · intro point hafter
      rcases hafter with rfl | rfl
      · exact ⟨⟨hlast, by simp⟩, by simp, by simp⟩
      · exact ⟨⟨hlast, by simp⟩, by simp, by simp⟩
    · exact fun _ => ⟨hlast, by simp [hpoint]⟩
  · intro hpoint updater h
    have hjustified := h.justified hs.toJustified
    have hbit := hjustified.requested (.inl hpoint)
    constructor
    · intro point hafter
      rcases hafter with rfl | rfl
      · exact ⟨⟨hjustified.announced, by simp⟩, by simp, by simp⟩
      · exact ⟨⟨hjustified.announced, fun _ => hbit⟩, by simp, by simp⟩
    · exact fun _ => hjustified
  · exact fun _ => ⟨⟨by simp, by simp⟩, by simp, by simp⟩
  · intro _ timers starts _
    refine hs.leaves rfl rfl fun bits => ?_
    cases starts <;> simp
  · exact fun _ => hs.leaves rfl rfl (by simp)
  · exact fun _ => hs.leaves rfl rfl (by simp)
  · exact fun _ => hs.leaves rfl rfl (by simp)

theorem SystemStep.ordered (step : SystemStep) (hs : Ordered s) :
    wp step.run (fun _ t => Ordered t) (fun _ t => Justified t) s := by
  cases step with
  | task replies => exact iapHttpsTask_ordered replies hs
  | timerExpires =>
      simp only [SystemStep.run, Esp32Ota.timerExpires, wp_bind, wp_get]
      split
      · exact hs.moves rfl rfl rfl
      · exact hs
  | undeletedTimerExpires =>
      simp only [SystemStep.run, Esp32Ota.undeletedTimerExpires, wp_bind, wp_get, wp_ite, wp_set, wp_pure]
      exact ⟨fun _ => hs.moves rfl rfl rfl, fun _ => hs⟩
  | checkNow =>
      simp only [SystemStep.run, iapHttpsTriggerProcessing, wp_bind, wp_get, wp_set, wp_ite]
      exact ⟨fun _ => hs.moves rfl rfl rfl, fun _ => hs.moves rfl rfl rfl⟩
  | checkNowSets =>
      simp only [SystemStep.run, iapHttpsTriggerSet, wp_bind, wp_get, wp_set, wp_ite, wp_pure]
      exact ⟨fun _ => hs.moves rfl rfl rfl, fun _ => hs⟩

-- In every order of the steps, whatever the servers answer.
theorem download_justified (partition : Partition) (config : IapHttpsConfig)
    (metadataBuffer firmwareBuffer : Malloc) (replies : TimerReplies) (steps : List SystemStep) :
    wp (run SystemStep.run steps) (fun _ s => Justified s) (fun _ s => Justified s)
      (System.start partition config metadataBuffer firmwareBuffer replies) := by
  have hstart : Ordered (System.start partition config metadataBuffer firmwareBuffer replies) := by
    refine ⟨⟨fun h => (by cases h), fun h => ?_⟩, fun _ h => (by cases h), fun h => (by cases h)⟩
    rcases h with h | h <;> cases h
  exact wp_mono (run_invariant SystemStep.run (I := Ordered) (fun step s hs _ => step.ordered hs) steps _ hstart
    (along_true SystemStep.run steps _)) (fun _ _ h => h.toJustified) (fun _ _ h => h)

end Steps

-- The timer wakes the task, and the server announces version 2.
example :
    wp (run SystemStep.run [exampleTask, exampleTask, .timerExpires, exampleTask, exampleTask,
        .task ⟨true, exampleScript exampleConnect [.data ⟨ascii "HTTP/1.1 200 OK\r\nContent-Length: 18\r\n\r\n",
          by decide⟩, .data ⟨ascii "VERSION=2\nFILE=/b\n", by decide⟩],
          fun _ => exampleFirmwareReplies ⟨ESP_OK, ESP_OK, ESP_OK⟩, ⟨true, true, true, true⟩⟩,
        exampleTask, exampleTask, exampleTask, exampleTask, exampleTask, exampleTask])
      (fun _ s => s.point = .downloadImage ∧ cstr s.updater.client.app.config.serverFirmwarePath = ascii "/b")
      (fun _ _ => False)
      (System.start ⟨"factory", 0x10000⟩ (exampleConfig false) (some fun _ => 0) (some fun _ => 0)
        ⟨true, true, true, true⟩) := by
  decide +kernel

end Esp32Ota
