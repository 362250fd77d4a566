import MeterLink.CommandLine.Run

/-!
# The settings with which a meter is called

Settings are checked once, after the environment has been put into those of the file. The options
of the command line are put in later and change the host and the port only, so everything that the
check demands still holds when a meter is called, but for one thing: a port of zero that was given
on the command line is never refused (`settings_of_talk`, `talk_to_port_zero`).
-/

namespace MeterLink

section Results

variable {ε δ α β : Type} {x : Except ε α}

theorem bind_eq_ok_iff {f : α → Except ε β} {b : β} :
    x >>= f = .ok b ↔ ∃ a, x = .ok a ∧ f a = .ok b := by
  cases x with
  | error => exact iff_of_false nofun nofun
  | ok a => exact ⟨fun h => ⟨a, rfl, h⟩, fun ⟨_, ha, h⟩ => Except.ok.inj ha ▸ h⟩

theorem mapError_eq_ok_iff {f : ε → δ} {a : α} : x.mapError f = .ok a ↔ x = .ok a := by
  cases x with
  | error => exact iff_of_false nofun nofun
  | ok => exact ⟨fun h => Except.ok.inj h ▸ rfl, fun h => Except.ok.inj h ▸ rfl⟩

theorem eq_ok_of_toOption {a : α} (h : x.toOption = some a) : x = .ok a := by
  cases x with
  | error => cases h
  | ok => exact congrArg _ (Option.some.inj h)

end Results

namespace Settings

theorem host_eq_ok_iff {s : Settings} {host : String} :
    s.host = .ok host ↔ s.meter.host = some host := by
  unfold Settings.host
  split
  · rename_i known hknown
    simp [hknown]
  · rename_i hnone
    simp [hnone]

/-- The settings were checked after the environment had been put into `base`. -/
def Cleared (environment : String → Option String) (base s : Settings) : Prop :=
  base.override environment = .ok s ∧ s.check = .ok ()

theorem cleared_of_load {file : Option SettingsFile} {environment : String → Option String}
    {loaded : LoadedSettings} (h : load file environment = .ok loaded) :
    ∃ found, resolve file = .ok found ∧ Cleared environment found.settings loaded.settings := by
  obtain ⟨found, hfound, h⟩ := bind_eq_ok_iff.1 (mapError_eq_ok_iff.1 h)
  obtain ⟨s, hs, h⟩ := bind_eq_ok_iff.1 h
  obtain ⟨⟨⟩, hcheck, h⟩ := bind_eq_ok_iff.1 h
  cases h
  exact ⟨found, hfound, hs, hcheck⟩

end Settings

namespace CommandLine

open Settings

variable {invocation : Invocation} {s : Settings}

theorem task_eq_talk_iff {now : Instant} {host : String} {final : Settings}
    {call : ClientM Json} :
    invocation.task now s = .ok (.talk host final call) ↔
      invocation.command.NeedsMeter ∧ (invocation.host <|> s.meter.host) = some host
        ∧ final = invocation.settings s ∧ call = invocation.command.call now := by
  unfold Invocation.task
  dsimp only
  split
  · rename_i hneeds
    rw [and_iff_right hneeds, bind_eq_ok_iff]
    simp only [mapError_eq_ok_iff, host_eq_ok_iff]
    constructor
    · rintro ⟨known, hknown, h⟩
      cases h
      exact ⟨hknown, rfl, rfl⟩
    · rintro ⟨hknown, rfl, rfl⟩
      exact ⟨host, hknown, rfl⟩
  · rename_i hneeds
    refine iff_of_false (fun h => ?_) fun h => hneeds h.1
    obtain ⟨json, -, h⟩ := bind_eq_ok_iff.1 h
    cases h

theorem usable_settings_iff (h : s.Usable) :
    (invocation.settings s).Usable ↔ invocation.port ≠ some 0 := by
  obtain ⟨hattempts, hbuffer, hconnect, hio, hport⟩ := h
  unfold Usable Invocation.settings
  dsimp only
  rcases invocation.port with _ | port
  · simp [hattempts, hbuffer, hconnect, hio, hport]
  · simp [hattempts, hbuffer, hconnect, hio]

theorem check_settings_of_port_zero (h : s.Usable) (hport : invocation.port = some 0) :
    (invocation.settings s).check = .error (.zero "meter.port") := by
  obtain ⟨hattempts, hbuffer, hconnect, hio, -⟩ := h
  unfold check Invocation.settings
  dsimp only
  rw [if_neg hattempts, if_neg hbuffer, if_neg hconnect, if_neg hio, hport, Option.getD_some,
    if_pos rfl]

/-- Loaded settings were checked after the environment had been put into them, so they are usable.
A meter is called exactly if the command needs one and its host is known, with these settings and
what the command line puts into them. They still are usable then, unless the command line has a port
of zero, for which the check would have refused them. -/
theorem settings_of_talk (environment : String → Option String) :
    (∀ file loaded, load file environment = .ok loaded →
      ∃ found, resolve file = .ok found ∧ Cleared environment found.settings loaded.settings)
    ∧ ∀ base s, Cleared environment base s → s.Usable
      ∧ ∀ (invocation : Invocation) now host final call,
        (invocation.task now s = .ok (.talk host final call) ↔
          invocation.command.NeedsMeter ∧ (invocation.host <|> s.meter.host) = some host
            ∧ final = invocation.settings s ∧ call = invocation.command.call now)
        ∧ (invocation.task now s = .ok (.talk host final call) →
          (final.Usable ↔ invocation.port ≠ some 0)
            ∧ (invocation.port = some 0 → final.check = .error (.zero "meter.port"))
            ∧ final.transport = s.transport ∧ 0 < final.transactions.maxAttempts) := by
  refine ⟨fun file loaded => cleared_of_load, fun base s hcleared => ?_⟩
  have husable := (check_eq_ok_iff s).1 hcleared.2
  refine ⟨husable, fun invocation now host final call => ⟨task_eq_talk_iff, fun htask => ?_⟩⟩
  obtain ⟨-, -, rfl, -⟩ := task_eq_talk_iff.1 htask
  have hattempts : 0 < s.transport.maxAttempts.toNat :=
    Nat.pos_of_ne_zero fun h => husable.1 (UInt32.toNat_inj.1 h)
  exact ⟨usable_settings_iff husable, check_settings_of_port_zero husable, rfl, hattempts⟩

/-- A port of zero in the file is replaced from the environment before the check, and that port by
the command line after it. -/
theorem settings_of_talk_replaced :
    ∃ loaded call,
      load (some ⟨"emop.toml", true, .ok "[meter]\nport = 0\n"⟩)
        (fun name => if name = "EMLITE_PORT" then some " 8081 " else none) = .ok loaded
      ∧ Invocation.task ⟨0, none, some "10.0.0.5", some 502, .serial⟩ ⟨0, 0⟩ loaded.settings
        = .ok (.talk "10.0.0.5" { meter := ⟨some "10.0.0.5", 502⟩ } call)
      ∧ Usable { meter := ⟨some "10.0.0.5", 502⟩ } := by
  have hload : load (some ⟨"emop.toml", true, .ok "[meter]\nport = 0\n"⟩)
      (fun name => if name = "EMLITE_PORT" then some " 8081 " else none)
        = .ok ⟨{ meter := { port := 8081 } }, some "emop.toml", []⟩ :=
    eq_ok_of_toOption (by decide +kernel)
  obtain ⟨hloaded, htalk⟩ := settings_of_talk
    fun name => if name = "EMLITE_PORT" then some " 8081 " else none
  obtain ⟨found, -, hcleared⟩ := hloaded _ _ hload
  obtain ⟨-, hreach⟩ := htalk _ _ hcleared
  obtain ⟨htask, husable⟩ := hreach ⟨0, none, some "10.0.0.5", some 502, .serial⟩ ⟨0, 0⟩ "10.0.0.5"
    { meter := ⟨some "10.0.0.5", 502⟩ } (Command.serial.call ⟨0, 0⟩)
  have hcall := htask.2 ⟨trivial, rfl, rfl, rfl⟩
  exact ⟨_, _, hload, hcall, (husable hcall).1.2 (by decide)⟩

/-- A meter is called at a port of zero although the check refuses one. -/
theorem talk_to_port_zero :
    ∃ invocation loaded call,
      parse ["--host", "127.0.0.1", "--port", "0", "serial"] = .ok invocation
      ∧ load (some ⟨"emop.toml", true, .ok "[transport]\nmin_request_interval_ms = 0\n"⟩)
        (fun _ => none) = .ok loaded
      ∧ invocation.task ⟨0, 0⟩ loaded.settings
        = .ok (.talk "127.0.0.1" (invocation.settings loaded.settings) call)
      ∧ (invocation.settings loaded.settings).check = .error (.zero "meter.port") := by
  have hparse : parse ["--host", "127.0.0.1", "--port", "0", "serial"]
      = .ok ⟨0, none, some "127.0.0.1", some 0, .serial⟩ := eq_ok_of_toOption (by decide +kernel)
  have hload : load (some ⟨"emop.toml", true, .ok "[transport]\nmin_request_interval_ms = 0\n"⟩)
      (fun _ => none) = .ok ⟨{ transport := { minInterval := 0 } }, some "emop.toml", []⟩ :=
    eq_ok_of_toOption (by decide +kernel)
  refine ⟨_, _, _, hparse, hload, task_eq_talk_iff.2 ⟨trivial, rfl, rfl, rfl⟩, ?_⟩
  exact check_settings_of_port_zero (by decide) rfl

end CommandLine

end MeterLink
