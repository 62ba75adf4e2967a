import Orbot.Vpn.OrbotVpnManager

/-! # What outlives a stop

A stop closes the interface it finds and ends the tun2socks that run. It does
nothing about a thread that is still on its way there, and before Lollipop
nothing about the proxy server.
-/

namespace Orbot.Vpn

open Lib.Transition

/-! ## The condition -/

/-- The thread has no interface that it may still set up, where these are
    closed. -/
def SetupPc.Harmless (closed : List Nat) : SetupPc → Prop
  | .closeOld newInterface | .forgetOld newInterface | .assign newInterface => newInterface = none
  | .start vpnInterface => ∀ n ∈ vpnInterface, n ∈ closed
  | .begin | .sleep | .startDNS | .establish | .readInterface | .tun2Socks _ | .returned
  | .done => True

/-- When a stop looks at the interface, this can be closed, no setup thread has
    another one that it may still set up, and no proxy server listens. From then
    on no thread is given an interface, or the port of a proxy server, until a
    start or refresh is handled. -/
def StopsCleanly (s : OrbotVpnManager) : VpnAction → Prop
  | .main input => s.main = .closeInterface →
      input ≠ .fails ∧ (∀ pc ∈ s.setups, pc.Harmless (s.closed ++ s.mInterface.toList)) ∧
        s.listening = []
  | .setup _ input => s.requested = false → input ≠ .interface
  | .bypass _ input => s.requested = false → input ≠ .listens
  | .start | .refresh | .stop => True

instance (closed : List Nat) : (pc : SetupPc) → Decidable (pc.Harmless closed)
  | .closeOld _ | .forgetOld _ | .assign _ => inferInstanceAs (Decidable (_ = _))
  | .start vpnInterface => inferInstanceAs (Decidable (∀ n ∈ vpnInterface, n ∈ closed))
  | .begin | .sleep | .startDNS | .establish | .readInterface | .tun2Socks _ | .returned
  | .done => .isTrue trivial

instance (s : OrbotVpnManager) : (a : VpnAction) → Decidable (StopsCleanly s a)
  | .main input => inferInstanceAs (Decidable (s.main = .closeInterface → input ≠ .fails ∧
      (∀ pc ∈ s.setups, pc.Harmless (s.closed ++ s.mInterface.toList)) ∧ s.listening = []))
  | .setup _ _ | .bypass _ _ => inferInstanceAs (Decidable (_ → _))
  | .start | .refresh | .stop => .isTrue trivial

/-! ## From a stop to the next start -/

/-- What holds from the moment a stop looks at the interface. -/
structure Stopped (s : OrbotVpnManager) : Prop where
  interface : ∀ n ∈ s.mInterface, n ∈ s.closed ∧ s.main = .forgetInterface
  setups : ∀ pc ∈ s.setups, pc.Harmless s.closed
  tun2Socks : s.main ≠ .forgetInterface → s.main ≠ .stopTun2Socks →
    ∀ vpnInterface, SetupPc.tun2Socks vpnInterface ∉ s.setups
  bypass : s.listening = []

theorem SetupPc.Harmless.mono {closed closed' : List Nat} {pc : SetupPc}
    (harmless : pc.Harmless closed) (more : closed ⊆ closed') : pc.Harmless closed' := by
  cases pc with
  | start vpnInterface => exact fun n held => more (harmless n held)
  | _ => exact harmless

theorem SetupPc.Harmless.terminated {closed : List Nat} {pc : SetupPc}
    (harmless : pc.Harmless closed) : pc.terminated.Harmless closed := by
  cases pc with
  | tun2Socks vpnInterface => trivial
  | _ => exact harmless

theorem not_mem_terminated (s : OrbotVpnManager) (vpnInterface : Nat) :
    SetupPc.tun2Socks vpnInterface ∉ (terminateTun2Socks s).setups := by
  intro member
  obtain ⟨pc, -, same⟩ := List.mem_map.mp member
  cases pc <;> cases same

/-! ## What a step of a thread can change -/

theorem setupStep_frame {s : OrbotVpnManager} {pc : SetupPc} {input : Input}
    {next : OrbotVpnManager × SetupPc} (taken : setupStep s pc input = some next) :
    ∃ mInterface isRestart established closed,
      next.1 = { s with mInterface, isRestart, established, closed } := by
  unfold setupStep at taken
  split at taken
  case h_6 => split at taken <;> exact ⟨_, _, _, _, by rw [← Option.some.inj taken]⟩
  case h_11 =>
    obtain ⟨-, same⟩ := Option.ite_none_left_eq_some.mp taken
    exact ⟨_, _, _, _, by rw [← Option.some.inj same]⟩
  case h_18 => cases taken
  all_goals exact ⟨_, _, _, _, by rw [← Option.some.inj taken]⟩

theorem bypassStep_frame {s : OrbotVpnManager} {pc : BypassPc} {input : Input}
    {next : OrbotVpnManager × BypassPc} (taken : bypassStep s pc input = some next) :
    ∃ mSocksProxyServer servers listening,
      next.1 = { s with mSocksProxyServer, servers, listening } := by
  unfold bypassStep at taken
  split at taken
  case h_2 =>
    split at taken
    · exact ⟨_, _, _, by rw [← Option.some.inj taken, stopServer]⟩
    · exact ⟨_, _, _, by rw [← Option.some.inj taken]⟩
  case h_5 => split at taken <;> exact ⟨_, _, _, by rw [← Option.some.inj taken]⟩
  case h_8 =>
    obtain ⟨-, same⟩ := Option.ite_none_left_eq_some.mp taken
    exact ⟨_, _, _, by rw [← Option.some.inj same]⟩
  case h_9 => cases taken
  all_goals exact ⟨_, _, _, by rw [← Option.some.inj taken]⟩

/-- A step of a harmless setup thread that is not given an interface. -/
structure SetupEnds (s : OrbotVpnManager) (next : OrbotVpnManager × SetupPc) : Prop where
  interface : next.1.mInterface = s.mInterface ∨ next.1.mInterface = none
  closed : s.closed ⊆ next.1.closed
  harmless : next.2.Harmless next.1.closed
  tun2Socks : ∀ vpnInterface, next.2 ≠ .tun2Socks vpnInterface

theorem SetupEnds.stay {s : OrbotVpnManager} {pc : SetupPc} (harmless : pc.Harmless s.closed)
    (tun2Socks : ∀ vpnInterface, pc ≠ .tun2Socks vpnInterface) : SetupEnds s (s, pc) :=
  ⟨.inl rfl, List.Subset.refl _, harmless, tun2Socks⟩

theorem setupEnds_of_step {s : OrbotVpnManager} {pc : SetupPc} {input : Input}
    {next : OrbotVpnManager × SetupPc} (taken : setupStep s pc input = some next)
    (closed : ∀ n ∈ s.mInterface, n ∈ s.closed) (harmless : pc.Harmless s.closed)
    (refused : input ≠ .interface) : SetupEnds s next := by
  cases pc with
  | begin =>
      cases input with
      | goes =>
          rw [← Option.some.inj taken]
          apply SetupEnds.stay
          · split_ifs <;> trivial
          · intro vpnInterface
            split_ifs <;> simp
      | _ => cases taken
  | sleep | startDNS =>
      cases input with
      | goes | fails =>
          rw [← Option.some.inj taken]
          exact .stay trivial (by simp)
      | _ => cases taken
  | establish =>
      cases input with
      | interface => exact absurd rfl refused
      | goes =>
          rw [← Option.some.inj taken]
          exact .stay rfl (by simp)
      | fails =>
          rw [← Option.some.inj taken]
          exact .stay trivial (by simp)
      | listens => cases taken
  | closeOld newInterface =>
      cases input with
      | goes =>
          cases held : s.mInterface with
          | none =>
              simp only [setupStep, held] at taken
              rw [← Option.some.inj taken]
              exact .stay harmless (by simp)
          | some old =>
              simp only [setupStep, held] at taken
              rw [← Option.some.inj taken]
              exact ⟨.inl held.symm, List.subset_append_left _ _, harmless, by simp⟩
      | fails =>
          rw [← Option.some.inj taken]
          exact .stay trivial (by simp)
      | _ => cases taken
  | forgetOld newInterface =>
      cases input with
      | goes =>
          rw [← Option.some.inj taken]
          exact ⟨.inr rfl, List.Subset.refl _, harmless, by simp⟩
      | _ => cases taken
  | assign newInterface =>
      cases input with
      | goes =>
          rw [← Option.some.inj taken]
          exact ⟨.inr harmless, List.Subset.refl _, trivial, by simp⟩
      | _ => cases taken
  | readInterface =>
      cases input with
      | goes =>
          rw [← Option.some.inj taken]
          exact .stay closed (by simp)
      | _ => cases taken
  | start vpnInterface =>
      cases vpnInterface with
      | none =>
          cases input with
          | goes =>
              rw [← Option.some.inj taken]
              exact .stay trivial (by simp)
          | _ => cases taken
      | some n =>
          cases input with
          | goes =>
              -- it was closed, so its descriptor is gone
              simp only [setupStep, if_pos (harmless n rfl)] at taken
              cases taken
          | fails =>
              rw [← Option.some.inj taken]
              exact .stay trivial (by simp)
          | _ => cases taken
  | tun2Socks vpnInterface => cases input <;> cases taken
  | returned =>
      cases input with
      | goes =>
          rw [← Option.some.inj taken]
          exact ⟨.inl rfl, List.Subset.refl _, trivial, by simp⟩
      | _ => cases taken
  | done => cases input <;> cases taken

/-- A bypass thread whose server does not get its port. -/
theorem bypassStep_listening {s : OrbotVpnManager} {pc : BypassPc} {input : Input}
    {next : OrbotVpnManager × BypassPc} (taken : bypassStep s pc input = some next)
    (refused : input ≠ .listens) : next.1.listening ⊆ s.listening := by
  cases pc with
  | check | forgetOld | create =>
      cases input with
      | goes =>
          rw [← Option.some.inj taken]
          exact List.Subset.refl _
      | _ => cases taken
  | stopOld =>
      cases input with
      | goes =>
          cases held : s.mSocksProxyServer with
          | none =>
              simp only [bypassStep, held] at taken
              rw [← Option.some.inj taken]
              exact List.Subset.refl _
          | some server =>
              simp only [bypassStep, held] at taken
              rw [← Option.some.inj taken]
              exact List.filter_sublist.subset
      | _ => cases taken
  | readServer =>
      cases input with
      | goes =>
          cases held : s.mSocksProxyServer with
          | none | some server =>
              simp only [bypassStep, held] at taken
              rw [← Option.some.inj taken]
              exact List.Subset.refl _
      | _ => cases taken
  | start server =>
      cases input with
      | listens => exact absurd rfl refused
      | fails =>
          rw [← Option.some.inj taken]
          exact List.Subset.refl _
      | _ => cases taken
  | serving server =>
      cases input with
      | goes =>
          obtain ⟨-, same⟩ := Option.ite_none_left_eq_some.mp taken
          rw [← Option.some.inj same]
          exact List.Subset.refl _
      | _ => cases taken
  | done => cases input <;> cases taken

namespace Stopped

variable {s s' : OrbotVpnManager} {input : Input}

theorem setup (stopped : Stopped s) {i : Nat} {pc : SetupPc}
    {next : OrbotVpnManager × SetupPc} (found : s.setups[i]? = some pc)
    (taken : setupStep s pc input = some next) (refused : input ≠ .interface) :
    Stopped { next.1 with setups := next.1.setups.set i next.2 } := by
  obtain ⟨interface, more, harmless, notThere⟩ := setupEnds_of_step taken
    (fun n held => (stopped.interface n held).1)
    (stopped.setups pc (List.mem_of_getElem? found)) refused
  obtain ⟨mInterface, isRestart, established, closed, same⟩ := setupStep_frame taken
  rw [same] at interface more harmless ⊢
  constructor
  case interface =>
    intro n held
    have before : n ∈ s.mInterface := by
      rcases interface with kept | forgotten
      · exact kept ▸ held
      · cases (held : mInterface = some n).symm.trans forgotten
    exact (stopped.interface n before).imp_left fun inside => more inside
  case setups =>
    intro other member
    rcases List.mem_or_eq_of_mem_set member with old | rfl
    · exact (stopped.setups other old).mono more
    · exact harmless
  case tun2Socks =>
    intro first second vpnInterface member
    rcases List.mem_or_eq_of_mem_set member with old | here
    · exact stopped.tun2Socks first second vpnInterface old
    · exact notThere vpnInterface here.symm
  case bypass => exact stopped.bypass

theorem bypassStep (stopped : Stopped s) {i : Nat} {pc : BypassPc}
    {next : OrbotVpnManager × BypassPc} (taken : bypassStep s pc input = some next)
    (refused : input ≠ .listens) :
    Stopped { next.1 with bypasses := next.1.bypasses.set i next.2 } := by
  obtain ⟨mSocksProxyServer, servers, listening, same⟩ := bypassStep_frame taken
  have fewer := bypassStep_listening taken refused
  rw [same] at fewer ⊢
  rw [stopped.bypass] at fewer
  exact ⟨stopped.interface, stopped.setups, stopped.tun2Socks, List.eq_nil_of_subset_nil fewer⟩

/-- Where the main thread is elsewhere there is no interface. -/
theorem mInterface_eq (stopped : Stopped s) (elsewhere : s.main ≠ .forgetInterface) :
    s.mInterface = none := by
  cases held : s.mInterface with
  | none => rfl
  | some n => exact absurd (stopped.interface n held).2 elsewhere

theorem terminate (stopped : Stopped s) (elsewhere : s.main ≠ .forgetInterface) (main : MainPc) :
    Stopped { terminateTun2Socks s with main } := by
  constructor
  case interface =>
    intro n held
    cases (stopped.mInterface_eq elsewhere).symm.trans held
  case setups =>
    intro pc member
    obtain ⟨pc', old, rfl⟩ := List.mem_map.mp member
    exact (stopped.setups pc' old).terminated
  case tun2Socks => exact fun _ _ vpnInterface => not_mem_terminated s vpnInterface
  case bypass => exact stopped.bypass

/-- The main thread goes on without tun2socks being concerned. -/
theorem goOn (stopped : Stopped s) (elsewhere : s.main ≠ .forgetInterface)
    (ended : s.main ≠ .stopTun2Socks) {s' : OrbotVpnManager} (interface : s'.mInterface = none)
    (setups : s'.setups = s.setups ∨ s'.setups = s.setups ++ [.begin])
    (closed : s'.closed = s.closed) (listening : s'.listening ⊆ s.listening) : Stopped s' := by
  have members : ∀ pc ∈ s'.setups, pc ∈ s.setups ∨ pc = .begin := by
    intro pc member
    rcases setups with same | same
    · exact .inl (same ▸ member)
    · rw [same, List.mem_append, List.mem_singleton] at member
      exact member
  constructor
  case interface =>
    intro n held
    cases interface.symm.trans held
  case setups =>
    intro pc member
    rw [closed]
    rcases members pc member with old | rfl
    · exact stopped.setups pc old
    · trivial
  case tun2Socks =>
    intro _ _ vpnInterface member
    rcases members _ member with old | new
    · exact stopped.tun2Socks elsewhere ended vpnInterface old
    · cases new
  case bypass =>
    rw [stopped.bypass] at listening
    exact List.eq_nil_of_subset_nil listening

theorem main (stopped : Stopped s) (elsewhere : s.main ≠ .closeInterface)
    (taken : mainStep s s.main input = some s') : Stopped s' := by
  cases pc : s.main with
  | idle => rw [pc] at taken; cases input <;> cases taken
  | closeInterface => exact absurd pc elsewhere
  | setupTun2Socks =>
      have interface := stopped.mInterface_eq (by simp [pc])
      rw [pc] at taken
      cases input with
      | goes =>
          simp only [mainStep, interface, Option.isSome_none, Bool.false_eq_true, if_false] at taken
          rw [← Option.some.inj taken]
          exact stopped.goOn (by simp [pc]) (by simp [pc]) rfl (.inl rfl) rfl (List.Subset.refl _)
      | _ => cases taken
  | stopForRestart | stopTun2Socks =>
      rw [pc] at taken
      cases input with
      | goes =>
          rw [← Option.some.inj taken]
          exact stopped.terminate (by simp [pc]) _
      | _ => cases taken
  | startThread =>
      have interface := stopped.mInterface_eq (by simp [pc])
      rw [pc] at taken
      cases input with
      | goes =>
          rw [← Option.some.inj taken]
          exact stopped.goOn (by simp [pc]) (by simp [pc]) interface (.inr rfl) rfl
            (List.Subset.refl _)
      | _ => cases taken
  | stopSocksBypass =>
      have interface := stopped.mInterface_eq (by simp [pc])
      rw [pc] at taken
      cases input with
      | goes =>
          cases held : s.mSocksProxyServer with
          | none =>
              simp only [mainStep, held] at taken
              rw [← Option.some.inj taken]
              exact stopped.goOn (by simp [pc]) (by simp [pc]) interface (.inl rfl) rfl
                (List.Subset.refl _)
          | some server =>
              simp only [mainStep, held] at taken
              rw [← Option.some.inj taken]
              exact stopped.goOn (by simp [pc]) (by simp [pc]) interface (.inl rfl) rfl
                List.filter_sublist.subset
      | _ => cases taken
  | forgetBypass | forgetThread =>
      have interface := stopped.mInterface_eq (by simp [pc])
      rw [pc] at taken
      cases input with
      | goes =>
          rw [← Option.some.inj taken]
          exact stopped.goOn (by simp [pc]) (by simp [pc]) interface (.inl rfl) rfl
            (List.Subset.refl _)
      | _ => cases taken
  | forgetInterface =>
      rw [pc] at taken
      cases input with
      | goes =>
          rw [← Option.some.inj taken]
          exact ⟨nofun, stopped.setups, fun _ notYet => absurd rfl notYet, stopped.bypass⟩
      | _ => cases taken

/-- A stop that looks at the interface under the condition, whatever was before. -/
theorem of_closeInterface (at_it : s.main = .closeInterface)
    (clean : StopsCleanly s (.main input)) (taken : mainStep s s.main input = some s') :
    Stopped s' := by
  obtain ⟨closes, harmless, silent⟩ := clean at_it
  rw [at_it] at taken
  cases input with
  | fails => exact absurd rfl closes
  | interface | listens => cases taken
  | goes =>
      cases held : s.mInterface with
      | none =>
          simp only [mainStep, held] at taken
          rw [← Option.some.inj taken]
          simp only [held, Option.toList_none, List.append_nil] at harmless
          exact ⟨nofun, harmless, fun _ notYet => absurd rfl notYet, silent⟩
      | some old =>
          simp only [mainStep, held] at taken
          rw [← Option.some.inj taken]
          simp only [held, Option.toList_some] at harmless
          have looked : ∀ n ∈ some old, n ∈ s.closed ++ [old] := by
            intro n inside
            obtain rfl : old = n := Option.some.inj inside
            exact List.mem_append_right _ (List.mem_singleton_self _)
          exact ⟨fun n inside => ⟨looked n inside, rfl⟩, harmless,
            fun notYet => absurd rfl notYet, silent⟩

end Stopped

/-! ## Every step -/

/-- The main thread changes `requested` only where a stop looks at the interface. -/
theorem mainStep_requested {s s' : OrbotVpnManager} {pc : MainPc} {input : Input}
    (elsewhere : pc ≠ .closeInterface) (taken : mainStep s pc input = some s') :
    s'.requested = s.requested := by
  unfold mainStep at taken
  split at taken
  case h_1 => split_ifs at taken <;> rw [← Option.some.inj taken]
  case h_4 =>
    split at taken
    · rw [← Option.some.inj taken, stopServer]
    · rw [← Option.some.inj taken]
  case h_6 | h_7 => exact absurd rfl elsewhere
  case h_11 => cases taken
  all_goals rw [← Option.some.inj taken] <;> rfl

theorem vpnStep_stopped {s s' : OrbotVpnManager} {a : VpnAction}
    (stopped : s.requested = false → Stopped s) (clean : StopsCleanly s a)
    (taken : vpnStep s a = some s') (still : s'.requested = false) : Stopped s' := by
  cases a with
  | start =>
      obtain ⟨-, same⟩ := Option.ite_none_right_eq_some.mp taken
      rw [← Option.some.inj same, handleIntent] at still
      split_ifs at still
  | refresh =>
      obtain ⟨-, same⟩ := Option.ite_none_right_eq_some.mp taken
      rw [← Option.some.inj same] at still
      cases still
  | stop =>
      obtain ⟨idle, same⟩ := Option.ite_none_right_eq_some.mp taken
      rw [← Option.some.inj same] at still ⊢
      have before := stopped still
      exact before.goOn (by simp [idle]) (by simp [idle]) (before.mInterface_eq (by simp [idle]))
        (.inl rfl) rfl (List.Subset.refl _)
  | main input =>
      by_cases at_it : s.main = .closeInterface
      · exact .of_closeInterface at_it clean taken
      · have before := (mainStep_requested at_it taken).symm.trans still
        exact (stopped before).main at_it taken
  | setup i input =>
      simp only [vpnStep] at taken
      split at taken
      next => cases taken
      next pc found =>
        obtain ⟨next, moved, rfl⟩ := Option.map_eq_some_iff.mp taken
        obtain ⟨_, _, _, _, frame⟩ := setupStep_frame moved
        have before : s.requested = false := by
          rw [frame] at still
          exact still
        exact (stopped before).setup found moved (clean before)
  | bypass i input =>
      simp only [vpnStep] at taken
      split at taken
      next => cases taken
      next pc found =>
        obtain ⟨next, moved, rfl⟩ := Option.map_eq_some_iff.mp taken
        obtain ⟨_, _, _, frame⟩ := bypassStep_frame moved
        have before : s.requested = false := by
          rw [frame] at still
          exact still
        exact (stopped before).bypassStep moved (clean before)

/-- In a run in which every stop is a clean one, a stopped VPN holds nothing as
    soon as its threads have settled. -/
theorem stopped_holds_nothing {mIsLollipop : Bool} {s : OrbotVpnManager}
    (reached : Reaches vpnStep StopsCleanly { mIsLollipop } s) (settled : Settled s)
    (stopped : s.requested = false) : HoldsNothing s := by
  have initial : Stopped { mIsLollipop } :=
    ⟨nofun, nofun, fun _ _ _ none => absurd none List.not_mem_nil, rfl⟩
  have kept : s.requested = false → Stopped s :=
    reached.invariant (fun _ => initial) fun _ _ _ stopped clean taken still =>
      vpnStep_stopped stopped clean taken still
  have now := kept stopped
  have idle := settled.main
  exact ⟨now.mInterface_eq (by simp [idle]), now.tun2Socks (by simp [idle]) (by simp [idle]),
    now.bypass⟩

/-! ## Without a proxy server -/

/-- No thread for a proxy server was started. -/
structure NoBypass (s : OrbotVpnManager) : Prop where
  lollipop : s.mIsLollipop = true
  bypasses : s.bypasses = []
  server : s.mSocksProxyServer = none
  listening : s.listening = []

theorem NoBypass.main {s s' : OrbotVpnManager} {pc : MainPc} {input : Input}
    (no : NoBypass s) (taken : mainStep s pc input = some s') : NoBypass s' := by
  obtain ⟨lollipop, bypasses, server, listening⟩ := no
  unfold mainStep at taken
  split at taken
  case h_1 =>
    split_ifs at taken <;>
      exact Option.some.inj taken ▸ ⟨lollipop, bypasses, server, listening⟩
  case h_4 =>
    simp only [server] at taken
    rw [← Option.some.inj taken]
    exact ⟨lollipop, bypasses, rfl, listening⟩
  case h_5 => exact Option.some.inj taken ▸ ⟨lollipop, bypasses, rfl, listening⟩
  case h_6 =>
    split at taken <;> exact Option.some.inj taken ▸ ⟨lollipop, bypasses, server, listening⟩
  case h_7 =>
    obtain ⟨-, same⟩ := Option.ite_none_right_eq_some.mp taken
    exact Option.some.inj same ▸ ⟨lollipop, bypasses, server, listening⟩
  case h_11 => cases taken
  all_goals exact Option.some.inj taken ▸ ⟨lollipop, bypasses, server, listening⟩

theorem NoBypass.step {s s' : OrbotVpnManager} {a : VpnAction} (no : NoBypass s)
    (taken : vpnStep s a = some s') : NoBypass s' := by
  have kept := no
  obtain ⟨lollipop, bypasses, server, listening⟩ := no
  cases a with
  | start =>
      obtain ⟨-, same⟩ := Option.ite_none_right_eq_some.mp taken
      rw [← Option.some.inj same, handleIntent, if_pos lollipop]
      split_ifs <;> exact ⟨lollipop, bypasses, server, listening⟩
  | refresh =>
      obtain ⟨-, same⟩ := Option.ite_none_right_eq_some.mp taken
      rw [← Option.some.inj same, handleIntent, if_pos lollipop]
      exact ⟨lollipop, bypasses, server, listening⟩
  | stop =>
      obtain ⟨-, same⟩ := Option.ite_none_right_eq_some.mp taken
      rw [← Option.some.inj same]
      exact ⟨lollipop, bypasses, server, listening⟩
  | main input => exact kept.main taken
  | setup i input =>
      simp only [vpnStep] at taken
      split at taken
      next => cases taken
      next =>
        obtain ⟨next, moved, rfl⟩ := Option.map_eq_some_iff.mp taken
        obtain ⟨_, _, _, _, frame⟩ := setupStep_frame moved
        rw [frame]
        exact ⟨lollipop, bypasses, server, listening⟩
  | bypass i input =>
      simp only [vpnStep, bypasses, List.getElem?_nil] at taken
      cases taken

/-- From Lollipop on there is no proxy server that a stop could leave. -/
theorem lollipop_no_bypass {s : OrbotVpnManager}
    (reached : Reachable vpnStep { mIsLollipop := true } s) :
    s.bypasses = [] ∧ s.listening = [] := by
  have no : NoBypass s := reached.invariant ⟨rfl, rfl, rfl, rfl⟩
    fun _ _ _ no _ taken => no.step taken
  exact ⟨no.bypasses, no.listening⟩

/-! ## Two runs -/

/-- The VPN is started, runs and is stopped. -/
theorem stopped_holds_nothing_lollipop :
    ∃ s, Reaches vpnStep StopsCleanly { mIsLollipop := true } s ∧ s.setups = [.done] ∧
      HoldsNothing s := by
  let s : OrbotVpnManager :=
    { mIsLollipop := true, setups := [.done], established := 1, closed := [0, 0] }
  have reached : Reaches vpnStep StopsCleanly { mIsLollipop := true } s := reaches_of_run
    [.start, .main .goes, .main .goes,
      .setup 0 .goes, .setup 0 .goes, .setup 0 .interface, .setup 0 .goes, .setup 0 .goes,
      .setup 0 .goes, .setup 0 .goes,
      .stop, .main .goes, .main .goes, .main .goes, .main .goes, .main .goes, .setup 0 .goes] rfl
  have settled : Settled s :=
    ⟨rfl, fun pc member => .inl (List.mem_singleton.mp member), fun _ none => by cases none⟩
  exact ⟨s, reached, rfl, stopped_holds_nothing reached settled rfl⟩

/-- A stop while the setup thread has yet to establish its interface, and before
    Lollipop a stop of a VPN with a proxy server. -/
theorem stopped_holds_something :
    (∃ s, Reachable vpnStep { mIsLollipop := true } s ∧ Settled s ∧ s.requested = false ∧
      s.mInterface = some 0 ∧ s.setups = [.tun2Socks 0] ∧ ¬ HoldsNothing s) ∧
    ∃ s, Reachable vpnStep { mIsLollipop := false } s ∧ Settled s ∧ s.requested = false ∧
      s.listening = [0] ∧ ¬ HoldsNothing s := by
  let outlived : OrbotVpnManager :=
    { mIsLollipop := true, mInterface := some 0, setups := [.tun2Socks 0], established := 1
      closed := [0] }
  let served : OrbotVpnManager :=
    { mIsLollipop := false, mSocksProxyServer := some 0, setups := [.done]
      bypasses := [.serving 0], servers := 1, listening := [0] }
  have first : Reachable vpnStep { mIsLollipop := true } outlived := reachable_of_run
    [.start, .main .goes, .main .goes, .setup 0 .goes,
      .stop, .main .goes, .main .goes, .main .goes, .main .goes,
      .setup 0 .goes, .setup 0 .interface, .setup 0 .goes, .setup 0 .goes, .setup 0 .goes,
      .setup 0 .goes] rfl
  have second : Reachable vpnStep { mIsLollipop := false } served := reachable_of_run
    [.start, .main .goes, .main .goes,
      .bypass 0 .goes, .bypass 0 .goes, .bypass 0 .goes, .bypass 0 .listens,
      .setup 0 .goes, .setup 0 .fails, .stop, .main .goes, .main .goes, .main .goes] rfl
  have running : Settled outlived :=
    ⟨rfl, fun pc member => .inr ⟨0, List.mem_singleton.mp member⟩, fun _ none => by cases none⟩
  have serving : Settled served :=
    ⟨rfl, fun pc member => .inl (List.mem_singleton.mp member),
      fun pc member => .inr ⟨0, List.mem_singleton_self _, List.mem_singleton.mp member⟩⟩
  have holdsInterface : ¬ HoldsNothing outlived := by
    intro nothing
    cases nothing.interface
  have holdsServer : ¬ HoldsNothing served := by
    intro nothing
    cases nothing.bypass
  exact ⟨⟨outlived, first, running, rfl, rfl, rfl, holdsInterface⟩,
    served, second, serving, rfl, rfl, holdsServer⟩

end Orbot.Vpn
