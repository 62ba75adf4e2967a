import Orbot.Service.TransparentProxy
import Orbot.TransProxy.ExitCodes

/-! # What the user is told of transparent proxying

The notification at the end of `enableTransparentProxy` goes by the value of
the operation that issued the rules. How the commands of the operation ended
has no part in that value.
-/

namespace Orbot.Service

open TransProxy
open TransProxy.Session (ran stamp)

/-- What transparent proxying is switched on for. -/
inductive Mode where
  | all
  | byApp (apps : List TorifiedApp)

namespace Mode

/-- No app is to have rules. -/
def Idle : Mode → Prop
  | .all => False
  | .byApp apps => ∀ app ∈ apps, app.torified = false ∨ app.username = torAppUsername

/-- The number of commands: the rules for the whole device, or the rule for DNS
    and three rules for each app. -/
def commandCount : Mode → ℕ
  | .all => 10
  | .byApp apps => 1 + 3 * (selected true apps).length

def setTransparentProxying (mode : Mode) (exits : ExitCodes) (device : Device)
    (ports : ServicePorts) (s : Session) : Int × Session :=
  match mode with
  | .all => Session.setTransparentProxyingAll exits device ports s true
  | .byApp apps => Session.setTransparentProxyingByApp exits device s apps true

end Mode

def Settings.mode (m : Machine) (settings : Settings) : Mode :=
  if settings.prefs.transparentProxyAll then .all else .byApp (m.apps settings)

/-- The texts of the notification. -/
inductive Notification where
  | transproxyEnabledForTethering
  | transparentProxyingEnabled
  | warningErrorStartingTransparentProxying
  deriving Repr, DecidableEq

/-- An enabling that came to its end. -/
structure Report where
  code : Int
  /-- what the operation that returned the code has run -/
  operation : List FinishedCommand
  notification : Notification
  session : Session
  deriving Repr, DecidableEq

namespace Report

/-- The notification for a value of the operation. -/
def notificationFor (code : Int) (transparentTethering : Bool) : Notification :=
  if code = 0 then
    if transparentTethering then .transproxyEnabledForTethering else .transparentProxyingEnabled
  else .warningErrorStartingTransparentProxying

/-- `enableTransparentProxy` once the ports are set. -/
def ofMode (exits : ExitCodes) (device : Device) (ports : ServicePorts) (mode : Mode)
    (transparentTethering : Bool) (s : Session) : Report :=
  let (code, after) := mode.setTransparentProxying exits device ports s
  { code := code
    operation := after.executed.drop s.executed.length
    notification := notificationFor code transparentTethering
    session :=
      if code = 0 ∧ transparentTethering = true then
        (Session.enableTetheringRules exits device after).2
      else after }

/-- `none` where a port cannot be read and an exception ends the call. -/
def enableTransparentProxy (exits : ExitCodes) (m : Machine) (settings : Settings) (s : Session) :
    Option Report :=
  let (proxy, ready) := setPorts m settings s.proxy
  if ready then
    some (ofMode exits m.device settings.ports (settings.mode m)
      settings.prefs.transparentTethering { s with proxy })
  else none

/-- A command that failed is not passed over. -/
def FailureShown (report : Report) : Prop :=
  (∃ e ∈ report.operation, e.exitCode ≠ 0) →
    report.code ≠ 0 ∧ report.notification = .warningErrorStartingTransparentProxying

end Report

/-! ## The value of the operation -/

namespace Mode

variable (exits : ExitCodes) (device : Device) (ports : ServicePorts)

/-- The operation without exit codes. -/
def outcome (mode : Mode) (proxy : TorTransProxy) : Outcome :=
  match mode with
  | .all => setTransparentProxyingAll device ports proxy true
  | .byApp apps => setTransparentProxyingByApp device proxy apps true

theorem setTransparentProxying_ran (mode : Mode) (s : Session) :
    mode.setTransparentProxying exits device ports s =
      ran exits s (mode.outcome device ports s.proxy) := by
  cases mode with
  | all => exact Session.setTransparentProxyingAll_ran exits device s ports true
  | byApp apps => exact Session.setTransparentProxyingByApp_ran exits device s apps true

theorem idle_byApp_iff (apps : List TorifiedApp) :
    (Mode.byApp apps).Idle ↔ selected true apps = [] := by
  simp only [Idle, selected, List.filter_eq_nil_iff]
  refine forall₂_congr fun app _ => ?_
  cases app.torified <;> simp

theorem outcome_issued_length (mode : Mode) (proxy : TorTransProxy) :
    (mode.outcome device ports proxy).issued.length = mode.commandCount := by
  cases mode with
  | all =>
      rw [outcome, (setTransparentProxyingAll_spec device ports proxy true).1]
      rfl
  | byApp apps =>
      rw [outcome, (setTransparentProxyingByApp_spec device proxy apps true).1, List.length_cons,
        List.length_flatMap, commandCount, Nat.add_comm]
      simp [appCommands, Nat.mul_comm]

/-- The value says whether there was anything to do. -/
theorem outcome_lastExit_iff (mode : Mode) (proxy : TorTransProxy) :
    (mode.outcome device ports proxy).lastExit ≠ 0 ↔ mode.Idle := by
  cases mode with
  | all =>
      have value := (setTransparentProxyingAll_spec device ports proxy true).2.2.2
      exact ⟨fun other => absurd value other, False.elim⟩
  | byApp apps =>
      rw [outcome, (setTransparentProxyingByApp_spec device proxy apps true).2.2.2, idle_byApp_iff]
      split_ifs with idle
      · simp [idle]
      · simp [idle]

end Mode

/-! ## The report -/

namespace Report

variable (exits : ExitCodes) (device : Device) (ports : ServicePorts) (mode : Mode)
  (transparentTethering : Bool) (s : Session)

theorem ofMode_code :
    (ofMode exits device ports mode transparentTethering s).code =
      (mode.outcome device ports s.proxy).lastExit :=
  congrArg Prod.fst (mode.setTransparentProxying_ran exits device ports s)

theorem ofMode_operation :
    (ofMode exits device ports mode transparentTethering s).operation =
      stamp exits s.executed.length (mode.outcome device ports s.proxy).issued := by
  have log := congrArg (fun result => result.2.executed)
    (mode.setTransparentProxying_ran exits device ports s)
  exact (congrArg (List.drop s.executed.length) log).trans List.drop_left

theorem notificationFor_iff (code : Int) :
    notificationFor code transparentTethering = .warningErrorStartingTransparentProxying ↔
      code ≠ 0 := by
  unfold notificationFor
  split_ifs with okay
  · simp [okay]
  · simp [okay]
  · simp [okay]

theorem ofMode_session :
    let outcome := mode.outcome device ports s.proxy
    let tethering := enableTetheringRules device outcome.proxy
    (ofMode exits device ports mode transparentTethering s).session =
      (ran exits s
        (if outcome.lastExit = 0 ∧ transparentTethering = true then
          { tethering with issued := outcome.issued ++ tethering.issued }
        else outcome)).2 := by
  intro outcome tethering
  have operation : mode.setTransparentProxying exits device ports s = ran exits s outcome :=
    mode.setTransparentProxying_ran exits device ports s
  rw [ofMode, operation]
  by_cases tethers : outcome.lastExit = 0 ∧ transparentTethering = true
  · rw [if_pos tethers]
    exact (if_pos tethers).trans
      (congrArg Prod.snd (Session.enableTetheringRules_ran exits device s outcome))
  · rw [if_neg tethers]
    exact if_neg tethers

theorem mode_outcome (m : Machine) (settings : Settings) (proxy : TorTransProxy) :
    (settings.mode m).outcome m.device settings.ports proxy =
      if settings.prefs.transparentProxyAll then
        setTransparentProxyingAll m.device settings.ports proxy true
      else setTransparentProxyingByApp m.device proxy (m.apps settings) true := by
  unfold Settings.mode
  split_ifs <;> rfl

/-- The commands of an enabling are those of the call without exit codes. -/
theorem enableTransparentProxy_ran (m : Machine) (settings : Settings) {report : Report}
    (ended : enableTransparentProxy exits m settings s = some report) :
    report.session = (ran exits s (Service.enableTransparentProxy m settings (some s.proxy))).2 := by
  simp only [enableTransparentProxy] at ended
  simp only [Service.enableTransparentProxy, Option.getD_some]
  split_ifs at ended with ready
  rw [if_pos ready, ← Option.some.inj ended, ofMode_session]
  simp only [mode_outcome, enableCommands]
  rfl

/-- A failure is shown exactly where nothing fails, or where the value is an
    error in any case. -/
theorem ofMode_failureShown_iff :
    (ofMode exits device ports mode transparentTethering s).FailureShown ↔
      (∀ i < mode.commandCount, exits (s.executed.length + i) = 0) ∨ mode.Idle := by
  have shown : (ofMode exits device ports mode transparentTethering s).notification =
      .warningErrorStartingTransparentProxying ↔ mode.Idle := by
    rw [← mode.outcome_lastExit_iff device ports s.proxy,
      ← ofMode_code exits device ports mode transparentTethering s]
    exact notificationFor_iff transparentTethering _
  rw [FailureShown, shown, ofMode_operation, Session.stamp_failed_iff, ofMode_code,
    Mode.outcome_issued_length, Mode.outcome_lastExit_iff, and_self]
  constructor
  · intro shown
    by_cases failed : ∃ i < mode.commandCount, exits (s.executed.length + i) ≠ 0
    · exact .inr (shown failed)
    · refine .inl fun i inside => ?_
      by_contra nonzero
      exact failed ⟨i, inside, nonzero⟩
  · rintro (succeed | idle) ⟨i, inside, failed⟩
    · exact absurd (succeed i inside) failed
    · exact idle

end Report

/-- Any failure is shown exactly where no command fails, or where no app is to
    have rules: all else is reported as enabled. -/
theorem failure_shown_iff (exits : ExitCodes) (s : Session) :
    (∀ device ports mode transparentTethering,
        (Report.ofMode exits device ports mode transparentTethering s).FailureShown ↔
          (∀ i < mode.commandCount, exits (s.executed.length + i) = 0) ∨ mode.Idle) ∧
      ∀ m settings, ∀ report ∈ Report.enableTransparentProxy exits m settings s,
        report.FailureShown ↔
          (∀ i < (settings.mode m).commandCount, exits (s.executed.length + i) = 0) ∨
            (settings.mode m).Idle := by
  constructor
  · intro device ports mode transparentTethering
    exact Report.ofMode_failureShown_iff exits device ports mode transparentTethering s
  · intro m settings report ended
    simp only [Report.enableTransparentProxy] at ended
    split_ifs at ended with ready
    · obtain rfl := Option.some.inj ended
      exact Report.ofMode_failureShown_iff exits m.device settings.ports (settings.mode m)
        settings.prefs.transparentTethering { s with proxy := (setPorts m settings s.proxy).1 }
    · cases ended

/-- A device without ip6tables: the first command of the whole-device mode fails. -/
def ip6tablesMissing : ExitCodes := fun n => if n = 0 then 127 else 0

theorem failure_shown_iff_ip6tablesMissing :
    ∃ report ∈ Report.enableTransparentProxy ip6tablesMissing exampleMachine exampleSettings
        { proxy := {} }, ¬ report.FailureShown := by
  refine ⟨_, rfl, ?_⟩
  intro shown
  have condition := ((failure_shown_iff ip6tablesMissing { proxy := {} }).2 exampleMachine
    exampleSettings _ rfl).mp shown
  rcases condition with succeed | idle
  · exact absurd (succeed 0 (by decide)) (by decide)
  · exact idle

/-- All IPv6 traffic still gets out, and the user is told that it does not. -/
theorem failure_reported_as_enabled :
    ∃ report ∈ Report.enableTransparentProxy ip6tablesMissing exampleMachine exampleSettings
        { proxy := {} },
      (∃ e ∈ report.operation, e.command.family = .ipv6 ∧ e.exitCode = 127) ∧ report.code = 0 ∧
        report.notification = .transparentProxyingEnabled ∧ ¬ report.FailureShown := by
  refine ⟨_, rfl, ⟨_, List.mem_cons_self .., rfl, rfl⟩, rfl, rfl, ?_⟩
  intro shown
  exact (shown ⟨_, List.mem_cons_self .., by decide⟩).1 rfl

end Orbot.Service
