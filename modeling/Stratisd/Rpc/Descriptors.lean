import Stratisd.Rpc.Answers

/-! What becomes of the file descriptors of packets. All but a single one are closed at once. That
one goes with the request: most requests close it, and a new key is read from it. It is forgotten if
the payload is not a request, and if a pool is to be unlocked for which no key is set. -/

namespace Stratisd.Rpc

open Run Run.Outcome Run.Stateful Engine

variable {σ : Type}

namespace Descriptors

/-- Everything that has been received has been closed or handed over, once for each time that it has
been received, and the key handler has closed what it has been handed. -/
structure Accounted (d : Descriptors) : Prop where
  settled : ∀ fd, d.closed.count fd + d.handed.count fd = d.received.count fd
  handler : d.closedByHandler = d.handed

def receive (fds : List RawFd) (d : Descriptors) : Descriptors :=
  { d with received := fds ++ d.received }

def closeAll (fds : List RawFd) (d : Descriptors) : Descriptors :=
  { d with closed := fds.reverse ++ d.closed }

def hand (fd : RawFd) (d : Descriptors) : Descriptors :=
  { d with handed := fd :: d.handed, closedByHandler := fd :: d.closedByHandler }

variable {d : Descriptors}

theorem accounted_empty : Accounted ⟨[], [], [], []⟩ := ⟨fun _ => rfl, rfl⟩

theorem Accounted.receive_closeAll (h : d.Accounted) (fds : List RawFd) :
    ((d.receive fds).closeAll fds).Accounted := by
  refine ⟨fun fd => ?_, h.handler⟩
  have := h.settled fd
  simp only [receive, closeAll, List.count_append, List.count_reverse]
  omega

theorem Accounted.receive_hand (h : d.Accounted) (fd : RawFd) :
    ((d.receive [fd]).hand fd).Accounted := by
  refine ⟨fun fd' => ?_, ?_⟩
  · have := h.settled fd'
    simp only [receive, hand, List.count_append, List.count_cons, List.count_nil]
    omega
  · simp only [receive, hand, h.handler]

theorem Accounted.not_receive (h : d.Accounted) (fd : RawFd) : ¬ (d.receive [fd]).Accounted := by
  intro h'
  have hold := h.settled fd
  have hnew := h'.settled fd
  simp only [receive, List.count_append, List.count_cons_self, List.count_nil] at hnew
  omega

end Descriptors

/-! ### Requests -/

/-- Code that has nothing to do with descriptors. -/
def Spares {α : Type} (p : Serving σ α) : Prop := ∀ x, (p x).1.2 = x.2

section spares

variable {α β : Type}

theorem spares_beside (q : Stateful σ StratisError α) : Spares (beside q) := fun _ => rfl

theorem spares_pure (a : α) : Spares (pure a : Serving σ α) := fun _ => rfl

theorem ledger_bind {p : Serving σ α} {f : α → Serving σ β} (hf : ∀ a, Spares (f a))
    (x : σ × Descriptors) : ((p >>= f) x).1.2 = (p x).1.2 := by
  rw [bind_apply]
  rcases p x with ⟨x', a | e | _⟩
  · exact hf a x'
  · rfl
  · rfl

theorem ledger_reply {T : Type} {foreign : StratisError → String} {ret : Coded T → StratisRet}
    {default : T} (p : Serving σ T) (x : σ × Descriptors) :
    (reply foreign ret default p x).1.2 = (p x).1.2 := by
  unfold reply
  rcases p x with ⟨x', a | e | _⟩ <;> rfl

end spares

theorem ledger_keySet (ops : EngineOps σ) (io : KeyFileIo) (keyDesc : String) (fd : RawFd)
    (x : σ × Descriptors) : (Key.keySet ops io keyDesc fd x).1.2 = x.2.hand fd := by
  rw [Key.keySet, note_bind, ledger_bind]
  · exact ledger_bind (fun _ => fun _ => rfl) _
  · intro memory y
    rw [ledger_bind]
    · rfl
    · intro action
      cases action <;> exact spares_pure _

/-- What becomes of a descriptor that comes with a request. -/
def settle (ops : EngineOps σ) (s : σ) (fd : RawFd) (d : Descriptors) :
    StratisParamType → Descriptors
  | .keySet _ => d.hand fd
  | .poolUnlock _ (some uuid) => if (Key.keyGetDesc ops s uuid).isSome then d.hand fd else d
  | .poolUnlock _ none => d
  | _ => d.closeAll [fd]

theorem ledger_setPromptedKey (ops : EngineOps σ) (io : ServeIo σ) (unlockMethod : UnlockMethod)
    (poolUuid : Option PoolUuid) (fd : RawFd) (x : σ × Descriptors) :
    (Pool.setPromptedKey ops io poolUuid (some fd) x).1.2 =
      settle ops x.1 fd x.2 (.poolUnlock unlockMethod poolUuid) := by
  cases poolUuid with
  | none => rfl
  | some uuid =>
    rw [Pool.setPromptedKey, beside_get_bind, settle]
    cases Key.keyGetDesc ops x.1 uuid with
    | none => rfl
    | some kd =>
      simp only [Option.isSome_some, if_true, beside_modify_bind]
      rw [ledger_bind (fun _ => spares_pure _), ledger_keySet]

theorem ledger_poolUnlock (ops : EngineOps σ) (io : ServeIo σ) (unlockMethod : UnlockMethod)
    (poolUuid : Option PoolUuid) (prompt : Option RawFd) (x : σ × Descriptors) :
    (Pool.poolUnlock ops io unlockMethod poolUuid prompt x).1.2 =
      (Pool.setPromptedKey ops io poolUuid prompt x).1.2 := by
  rw [Pool.poolUnlock, ledger_bind]
  exact fun _ y => ledger_bind (fun _ => spares_beside _) y

theorem ledger_process (ops : EngineOps σ) (io : ServeIo σ) (type_ : StratisParamType) (fd : RawFd)
    (x : σ × Descriptors) :
    (process ops io ⟨type_, some fd⟩ x).1.2 = settle ops x.1 fd x.2 type_ := by
  cases type_ with
  | keySet keyDesc => exact (ledger_reply _ x).trans (ledger_keySet ops _ _ fd x)
  | poolUnlock unlockMethod uuid =>
    calc (process ops io ⟨.poolUnlock unlockMethod uuid, some fd⟩ x).1.2
      _ = (Pool.poolUnlock ops io unlockMethod uuid (some fd) x).1.2 := ledger_reply _ x
      _ = (Pool.setPromptedKey ops io uuid (some fd) x).1.2 := ledger_poolUnlock ops io _ _ _ x
      _ = _ := ledger_setPromptedKey ops io unlockMethod uuid fd x
  | _ => rfl

theorem ledger_process_none (ops : EngineOps σ) (io : ServeIo σ) (type_ : StratisParamType)
    (x : σ × Descriptors) : (process ops io ⟨type_, none⟩ x).1.2 = x.2 := by
  cases type_ with
  | poolUnlock unlockMethod uuid =>
    refine (ledger_reply _ x).trans ((ledger_poolUnlock ops io _ _ _ x).trans ?_)
    cases uuid <;> rfl
  | keySet keyDesc => rfl
  | poolList | fsList | report => rfl
  | _ => exact ledger_reply _ x

/-! ### Packets -/

theorem forEach_close (fds : List RawFd) (x : σ × Descriptors) :
    forEach close fds x = ((x.1, x.2.closeAll fds), .ok ()) := by
  induction fds generalizing x with
  | nil => rfl
  | cons fd fds ih =>
    rw [forEach, close, note_bind, ih]
    simp [Descriptors.closeAll]

/-- A single descriptor is kept for the request; otherwise all there are have been closed. -/
theorem handleCmsgs_cases (cmsgs : List ControlMessage) (x : σ × Descriptors) :
    (∃ fd, cmsgs = [.scmRights [fd]] ∧ handleCmsgs cmsgs x = (x, .ok (some fd))) ∨
      (∀ fd, cmsgs ≠ [.scmRights [fd]]) ∧
        (handleCmsgs cmsgs x).1 = (x.1, x.2.closeAll (cmsgs.flatMap (·.fds))) ∧
        ∀ fdOpt, (handleCmsgs cmsgs x).2 = .ok fdOpt → fdOpt = none := by
  match cmsgs with
  | [] => exact Or.inr ⟨nofun, rfl, fun _ h => (ok.inj h).symm⟩
  | [.other] => exact Or.inr ⟨nofun, rfl, fun _ h => (ok.inj h).symm⟩
  | [.scmRights []] => exact Or.inr ⟨nofun, rfl, fun _ h => (ok.inj h).symm⟩
  | [.scmRights [fd]] => exact Or.inl ⟨fd, rfl, rfl⟩
  | [.scmRights (fd :: fd' :: fds)] =>
    have heq : handleCmsgs [.scmRights (fd :: fd' :: fds)] x =
        ((x.1, x.2.closeAll (fd :: fd' :: fds)),
          .err (.msg "Received more than one file descriptor")) := by
      rw [handleCmsgs, if_neg (by simp)]
      simp only [List.getLast?_singleton]
      rw [if_pos (by simp), bind_of_eq (forEach_close _ x)]
      rfl
    refine Or.inr ⟨by simp, ?_, ?_⟩
    · rw [heq]
      simp [ControlMessage.fds]
    · rw [heq]
      nofun
  | cmsg :: cmsg' :: cmsgs =>
    have heq : handleCmsgs (cmsg :: cmsg' :: cmsgs) x =
        ((x.1, x.2.closeAll ((cmsg :: cmsg' :: cmsgs).flatMap (·.fds))),
          .err (.msg "Unix packet contained more than one ancillary data message")) := by
      rw [handleCmsgs, if_pos (by simp), bind_of_eq (forEach_close _ x)]
      rfl
    refine Or.inr ⟨by simp, ?_, ?_⟩
    · rw [heq]
    · rw [heq]
      nofun

/-- A packet with a single descriptor is a request that makes something of it. -/
def Settled (ops : EngineOps σ) (fromSlice : List UInt8 → Option StratisParamType) (s : σ)
    (packet : Packet) : Prop :=
  ∀ fd, packet.cmsgs = [.scmRights [fd]] → ∃ type_, fromSlice packet.payload = some type_ ∧
    ∀ unlockMethod uuid, type_ = .poolUnlock unlockMethod uuid →
      ∃ u, uuid = some u ∧ (Key.keyGetDesc ops s u).isSome

section packets

variable (ops : EngineOps σ) (fromSlice : List UInt8 → Option StratisParamType) (io : ServeIo σ)
  (packet : Packet) (s : σ) (d : Descriptors)

theorem tryRecvmsg_of_handleCmsgs {s' : σ} {d' : Descriptors} {r : StratisResult (Option RawFd)}
    (h : handleCmsgs packet.cmsgs (s, d.receive packet.fds) = ((s', d'), r)) :
    tryRecvmsg fromSlice packet (s, d) = ((s', d'), r >>= fun fdOpt =>
      ofOption .serde (fromSlice packet.payload) >>= fun type_ => .ok ⟨type_, fdOpt⟩) := by
  have hrecv : tryRecvmsg fromSlice packet (s, d) = (handleCmsgs packet.cmsgs >>= fun fdOpt =>
      Stateful.lift (ofOption .serde (fromSlice packet.payload)) >>= fun type_ =>
        pure ⟨type_, fdOpt⟩) (s, d.receive packet.fds) := rfl
  rw [hrecv, bind_apply, h]
  cases r with
  | ok fdOpt => cases fromSlice packet.payload <;> rfl
  | err e => rfl
  | panic => rfl

theorem ledger_handleRequest_closed (hne : ∀ fd, packet.cmsgs ≠ [.scmRights [fd]]) :
    (handleRequest ops fromSlice io packet (s, d)).1.2 =
      (d.receive packet.fds).closeAll packet.fds := by
  obtain ⟨fd, hcmsgs, -⟩ | ⟨-, hstate, hnone⟩ :=
    handleCmsgs_cases packet.cmsgs (s, d.receive packet.fds)
  · exact absurd hcmsgs (hne fd)
  rcases hmsgs : handleCmsgs packet.cmsgs (s, d.receive packet.fds) with ⟨x, r⟩
  rw [hmsgs] at hstate hnone
  obtain rfl : x = (s, (d.receive packet.fds).closeAll packet.fds) := hstate
  rw [handleRequest, bind_apply, attempt,
    tryRecvmsg_of_handleCmsgs fromSlice packet s d hmsgs]
  cases r with
  | ok fdOpt =>
    obtain rfl := hnone fdOpt rfl
    cases fromSlice packet.payload with
    | none => rfl
    | some type_ =>
      exact (ledger_bind (fun _ => spares_pure _) _).trans (ledger_process_none ops io type_ _)
  | err e => rfl
  | panic => rfl

theorem ledger_handleRequest_single {fd : RawFd} (hcmsgs : packet.cmsgs = [.scmRights [fd]]) :
    (handleRequest ops fromSlice io packet (s, d)).1.2 =
      match fromSlice packet.payload with
      | none => d.receive [fd]
      | some type_ => settle ops s fd (d.receive [fd]) type_ := by
  have hfds : packet.fds = [fd] := by
    rw [Packet.fds, hcmsgs]
    rfl
  have hkept : handleCmsgs packet.cmsgs (s, d.receive packet.fds) =
      ((s, d.receive [fd]), .ok (some fd)) := by
    rw [hcmsgs, hfds]
    rfl
  rw [handleRequest, bind_apply, attempt,
    tryRecvmsg_of_handleCmsgs fromSlice packet s d hkept]
  cases fromSlice packet.payload with
  | none => rfl
  | some type_ =>
    exact (ledger_bind (fun _ => spares_pure _) _).trans (ledger_process ops io type_ fd _)

variable {s d}

theorem settle_accounted_iff (h : d.Accounted) (fd : RawFd) (type_ : StratisParamType) :
    (settle ops s fd (d.receive [fd]) type_).Accounted ↔
      ∀ unlockMethod uuid, type_ = .poolUnlock unlockMethod uuid →
        ∃ u, uuid = some u ∧ (Key.keyGetDesc ops s u).isSome := by
  have hclosed := h.receive_closeAll [fd]
  cases type_ with
  | keySet keyDesc => exact iff_of_true (h.receive_hand fd) nofun
  | poolUnlock unlockMethod uuid =>
    cases uuid with
    | none => simpa [settle] using h.not_receive fd
    | some uuid =>
      simp only [settle, StratisParamType.poolUnlock.injEq]
      split_ifs with hdesc
      · refine iff_of_true (h.receive_hand fd) ?_
        rintro _ _ ⟨rfl, rfl⟩
        exact ⟨uuid, rfl, hdesc⟩
      · refine iff_of_false (h.not_receive fd) fun hsome => ?_
        obtain ⟨u, hu, hdesc'⟩ := hsome unlockMethod (some uuid) ⟨rfl, rfl⟩
        obtain rfl := Option.some.inj hu
        exact hdesc hdesc'
  | _ => exact iff_of_true hclosed nofun

theorem handleRequest_accounted_iff (h : d.Accounted) :
    (handleRequest ops fromSlice io packet (s, d)).1.2.Accounted ↔
      Settled ops fromSlice s packet := by
  by_cases hsingle : ∃ fd, packet.cmsgs = [.scmRights [fd]]
  · obtain ⟨fd, hcmsgs⟩ := hsingle
    have hsettled : Settled ops fromSlice s packet ↔ ∃ type_, fromSlice packet.payload = some type_ ∧
        ∀ unlockMethod uuid, type_ = .poolUnlock unlockMethod uuid →
          ∃ u, uuid = some u ∧ (Key.keyGetDesc ops s u).isSome :=
      ⟨fun hs => hs fd hcmsgs, fun hs _ _ => hs⟩
    rw [ledger_handleRequest_single ops fromSlice io packet s d hcmsgs, hsettled]
    cases fromSlice packet.payload with
    | none => simpa using h.not_receive fd
    | some type_ => simpa using settle_accounted_iff ops h fd type_
  · have hne : ∀ fd, packet.cmsgs ≠ [.scmRights [fd]] := fun fd hfd => hsingle ⟨fd, hfd⟩
    rw [ledger_handleRequest_closed ops fromSlice io packet s d hne]
    exact iff_of_true (h.receive_closeAll _) fun fd hfd => absurd hfd (hne fd)

end packets

def serveStep (ops : EngineOps σ) (fromSlice : List UInt8 → Option StratisParamType)
    (x : σ × Descriptors) (i : ServeIo σ × Packet) :
    (σ × Descriptors) × StratisResult (Option StratisRet) :=
  handleRequest ops fromSlice i.1 i.2 x

/-- Every descriptor of a packet has been closed or handed to the key handler, once, when the packet
has been dealt with, exactly if the packet does not have a single descriptor or is a request that
makes something of it. All descriptors of a run of packets are accounted for all the way exactly if
that holds of each packet. -/
theorem descriptors_accounted_iff (ops : EngineOps σ)
    (fromSlice : List UInt8 → Option StratisParamType) :
    (∀ io packet s d, Descriptors.Accounted d →
      ((handleRequest ops fromSlice io packet (s, d)).1.2.Accounted ↔
        Settled ops fromSlice s packet)) ∧
    ∀ s inputs, (∀ pre, pre <+: inputs →
        (run (serveStep ops fromSlice) (s, ⟨[], [], [], []⟩) pre).1.2.Accounted) ↔
      AllSteps (serveStep ops fromSlice) (fun x i => Settled ops fromSlice x.1 i.2)
        (s, ⟨[], [], [], []⟩) inputs := by
  refine ⟨fun io packet s d h => handleRequest_accounted_iff ops fromSlice io packet h, ?_⟩
  intro s inputs
  refine forall_prefix_iff_of_allSteps _ (Q := fun x : σ × Descriptors => x.2.Accounted)
    (I := fun _ => True) (B := fun _ _ => True) ?_ trivial ?_ ?_
  · exact fun x i _ h _ => ⟨trivial, handleRequest_accounted_iff ops fromSlice i.1 i.2 h⟩
  · exact Descriptors.accounted_empty
  · exact allSteps_of_forall _ fun _ _ => trivial

/-- A key is set from one descriptor; then there is a packet with two of them. -/
def keyAndTwo : List (ServeIo Unit × Packet) :=
  [(quiet, ⟨[.scmRights [7]], []⟩), (quiet, ⟨[.scmRights [8, 9]], []⟩)]

theorem descriptors_accounted_iff_keySet :
    let d := (run (serveStep onePool fun _ => some (.keySet "key")) ((), ⟨[], [], [], []⟩)
      keyAndTwo).1.2
    d = ⟨[8, 9, 7], [9, 8], [7], [7]⟩ ∧ d.Accounted := by
  have hsteps : AllSteps (serveStep onePool fun _ => some (.keySet "key"))
      (fun x i => Settled onePool (fun _ => some (.keySet "key")) x.1 i.2)
      ((), ⟨[], [], [], []⟩) keyAndTwo :=
    ⟨fun fd _ => ⟨_, rfl, nofun⟩, fun fd _ => ⟨_, rfl, nofun⟩, trivial⟩
  have hiff := (descriptors_accounted_iff onePool fun _ => some (.keySet "key")).2 () keyAndTwo
  exact ⟨rfl, hiff.mpr hsteps _ List.prefix_rfl⟩

/-- The descriptor of a packet that is not a request, and that of a request to unlock all pools, stay
open. -/
theorem descriptor_forgotten :
    (handleRequest onePool (fun _ => none) quiet ⟨[.scmRights [7]], []⟩ ((), ⟨[], [], [], []⟩)).1.2 =
      ⟨[7], [], [], []⟩ ∧
    (handleRequest onePool (fun _ => some (.poolUnlock .keyring none)) quiet
      ⟨[.scmRights [7]], []⟩ ((), ⟨[], [], [], []⟩)).1.2 = ⟨[7], [], [], []⟩ ∧
    ¬ Descriptors.Accounted ⟨[7], [], [], []⟩ := by
  refine ⟨rfl, rfl, fun h => ?_⟩
  exact absurd (h.settled 7) (by decide)

end Stratisd.Rpc
