import Esp32Ota.IapHttps.Polling

-- The period of the timer after a document that sets the polling interval.
namespace Esp32Ota

open CLib Halting

-- The milliseconds of the interval, in ticks.
def timerPeriod (pollingIntervalS : Nat) : Nat := pdMsToTicks (sizeT (1000 * pollingIntervalS))

-- Neither product wraps exactly if the larger one fits; one that wraps loses time.
theorem timerPeriod_eq_iff {n : Nat} (hticks : n * CONFIG_FREERTOS_HZ < 2 ^ 32) :
    timerPeriod n = n * CONFIG_FREERTOS_HZ ↔ 1000 * n * CONFIG_FREERTOS_HZ < 2 ^ 32 := by
  unfold timerPeriod pdMsToTicks sizeT
  unfold CONFIG_FREERTOS_HZ at *
  omega

theorem timerPeriod_le (n : Nat) : timerPeriod n ≤ n * CONFIG_FREERTOS_HZ := by
  unfold timerPeriod pdMsToTicks sizeT CONFIG_FREERTOS_HZ
  omega

section PrepareTimer

variable {replies : TimerReplies} {timers : Timers} {pollingIntervalS : Nat}

-- A reset keeps the period.
theorem resetTimer_period (timers : Timers) :
    (iapHttpsResetTimer replies timers).checkForUpdatesTimer.map Timer.period =
      timers.checkForUpdatesTimer.map Timer.period := by
  unfold iapHttpsResetTimer
  split
  · rw [Option.map_map]
    rfl
  · rfl

theorem prepareTimer_period (hinterval : 0 < pollingIntervalS)
    (hcreate : timers.checkForUpdatesTimer = none → replies.create = true)
    (hchange : replies.changePeriod = true) :
    (iapHttpsPrepareTimer replies pollingIntervalS timers).checkForUpdatesTimer.map Timer.period =
      some (timerPeriod pollingIntervalS) := by
  obtain ⟨timer, hneed⟩ := needTimer_of_create hinterval hcreate
  simp only [iapHttpsPrepareTimer, hneed, resetTimer_period, iapHttpsChangePeriod, hchange, ite_true]
  rfl

end PrepareTimer

-- The period is the interval in ticks up to the one whose milliseconds, times the tick
-- rate, fill 32 bits. From there on the timer expires early.
theorem poll_period_iff (responseBuffer : Bytes) (n : Nat) (interval : Int)
    (hinterval : httpParseKeyValueInt responseBuffer (ascii "INTERVAL=") = some interval)
    (hpos : 0 < interval) (hticks : interval * CONFIG_FREERTOS_HZ < 2 ^ 32) (replies : TimerReplies)
    (timers : Timers) (hcreate : timers.checkForUpdatesTimer = none → replies.create = true)
    (hchange : replies.changePeriod = true) (s : App) :
    (wp (iapHttpsMetadataBodyCallback responseBuffer n)
      (fun _ t => (iapHttpsPrepareTimer replies t.config.pollingIntervalS timers).checkForUpdatesTimer.map
        Timer.period = some (interval.toNat * CONFIG_FREERTOS_HZ)) (fun _ _ => False) s ↔
      1000 * interval * CONFIG_FREERTOS_HZ < 2 ^ 32) ∧
    (¬1000 * interval * CONFIG_FREERTOS_HZ < 2 ^ 32 → wp (iapHttpsMetadataBodyCallback responseBuffer n)
      (fun _ t => ∃ period < interval.toNat * CONFIG_FREERTOS_HZ,
        (iapHttpsPrepareTimer replies t.config.pollingIntervalS timers).checkForUpdatesTimer.map
          Timer.period = some period) (fun _ _ => False) s) := by
  obtain ⟨k, rfl⟩ := Int.eq_ofNat_of_zero_le (Int.le_of_lt hpos)
  have hk : 0 < k := by omega
  have hsmall : k * CONFIG_FREERTOS_HZ < 2 ^ 32 := by
    unfold CONFIG_FREERTOS_HZ at *
    omega
  have hsize : toSize k = k := toSize_natCast k (by unfold CONFIG_FREERTOS_HZ at hsmall; omega)
  have hcast : 1000 * (k : Int) * CONFIG_FREERTOS_HZ < 2 ^ 32 ↔ 1000 * k * CONFIG_FREERTOS_HZ < 2 ^ 32 := by
    unfold CONFIG_FREERTOS_HZ
    omega
  have hperiod := prepareTimer_period hk hcreate hchange
  simp only [wp_iapHttpsMetadataBodyCallback, App.withMetadata_pollingIntervalS, hinterval, Option.map_some,
    Option.getD_some, hsize, hperiod, Option.some.injEq]
  rw [hcast, Int.toNat_natCast, ← timerPeriod_eq_iff hsmall]
  exact ⟨Iff.rfl, fun h => ⟨_, lt_of_le_of_ne (timerPeriod_le k) h, rfl⟩⟩

def allTimerCalls : TimerReplies := ⟨true, true, true, true⟩

def exampleApp : App := (exampleUpdater ⟨"factory", 0x10000⟩ false).client.app

-- A minute.
theorem poll_period_minute :
    wp (iapHttpsMetadataBodyCallback (ascii "INTERVAL=60") 11)
      (fun _ t => (iapHttpsPrepareTimer allTimerCalls t.config.pollingIntervalS
        ⟨none, 0⟩).checkForUpdatesTimer.map Timer.period = some 6000) (fun _ _ => False) exampleApp :=
  (poll_period_iff (ascii "INTERVAL=60") 11 60 (by decide) (by decide) (by decide) allTimerCalls ⟨none, 0⟩
    (fun _ => rfl) rfl exampleApp).1.mpr (by decide)

-- With an interval of one day the timer expires after less than nine minutes.
theorem poll_period_day :
    ¬∀ (responseBuffer : Bytes) (n : Nat) (interval : Int),
      httpParseKeyValueInt responseBuffer (ascii "INTERVAL=") = some interval → 0 < interval →
      interval * CONFIG_FREERTOS_HZ < 2 ^ 32 → ∀ (replies : TimerReplies) (timers : Timers),
      (timers.checkForUpdatesTimer = none → replies.create = true) → replies.changePeriod = true →
      ∀ s : App, wp (iapHttpsMetadataBodyCallback responseBuffer n)
        (fun _ t => (iapHttpsPrepareTimer replies t.config.pollingIntervalS timers).checkForUpdatesTimer.map
          Timer.period = some (interval.toNat * CONFIG_FREERTOS_HZ)) (fun _ _ => False) s := by
  intro h
  have hday := h (ascii "INTERVAL=86400") 14 86400 (by decide) (by decide) (by decide) allTimerCalls ⟨none, 0⟩
    (fun _ => rfl) rfl exampleApp
  have hperiod : wp (iapHttpsMetadataBodyCallback (ascii "INTERVAL=86400") 14)
      (fun _ t => (iapHttpsPrepareTimer allTimerCalls t.config.pollingIntervalS
        ⟨none, 0⟩).checkForUpdatesTimer.map Timer.period = some 50065) (fun _ _ => False) exampleApp := by
    decide
  obtain ⟨_, t, -, hone, htwo⟩ := exists_ok_of_wp (wp_mono (wp_and hday hperiod) (fun _ _ h => h)
    (fun _ _ h => h.1))
  rw [hone] at htwo
  exact absurd htwo (by decide)

end Esp32Ota
