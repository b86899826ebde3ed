import Stratisd.Rpc.Server

/-! The names of the replies. Each reply of the server is named in two places, where a request is
served and where it is refused for its file descriptor. In two of these places the name is not that
of the request: new data devices are answered as a new cache, and a list of keys that comes with a
descriptor is refused as the removal of a key. -/

namespace Stratisd.Rpc

open Run Engine

variable {σ : Type}

/-- The code replies under that name, or is stopped by the engine. -/
def Names (m : Method) (p : Serving σ StratisRet) : Prop :=
  ∀ x, (p x).2 = .panic ∨ ∃ ret, (p x).2 = .ok ret ∧ ret.method = m

section names

variable {T : Type} {foreign : StratisError → String} {fdOpt : Option RawFd}
  {ret : Coded T → StratisRet} {m : Method}

theorem names_pure {r : StratisRet} (h : r.method = m) : Names m (pure r : Serving σ StratisRet) :=
  fun _ => Or.inr ⟨r, rfl, h⟩

theorem names_reply (h : ∀ c, (ret c).method = m) (default : T) (p : Serving σ T) :
    Names m (reply foreign ret default p) := by
  intro x
  unfold reply
  rcases p x with ⟨x', a | e | _⟩
  · exact Or.inr ⟨_, rfl, h _⟩
  · exact Or.inr ⟨_, rfl, h _⟩
  · exact Or.inl rfl

theorem names_expectsFd {default : T} {rest : RawFd → Serving σ StratisRet}
    (h : ∀ c, (ret c).method = m) (hrest : ∀ fd, Names m (rest fd)) :
    Names m (expectsFd foreign fdOpt ret default rest) := by
  cases fdOpt with
  | none => exact names_pure (h _)
  | some fd => exact hrest fd

theorem names_expectsNoFd {m' : Method} {default : T} {rest : Serving σ StratisRet}
    (h : ∀ c, (ret c).method = m) (hrest : Names m' rest) :
    Names (if fdOpt.isSome then m else m') (expectsNoFd foreign fdOpt ret default rest) := by
  cases fdOpt with
  | none => exact hrest
  | some fd => exact fun x => names_pure (h _) _

theorem names_refused_or_reply (default : T) (p : Serving σ T) (h : ∀ c, (ret c).method = m) :
    Names m (expectsNoFd foreign fdOpt ret default (reply foreign ret default p)) := by
  have htwo : Names (if fdOpt.isSome then m else m)
      (expectsNoFd foreign fdOpt ret default (reply foreign ret default p)) :=
    names_expectsNoFd h (names_reply h default p)
  rwa [ite_self] at htwo

theorem names_readOnly {ret : σ → StratisRet} (h : ∀ s, (ret s).method = m) :
    Names m (readOnly fdOpt ret) := by
  intro x
  cases fdOpt with
  | none => exact names_pure (h _) x
  | some fd => exact names_pure (h _) x

end names

def replyMethod (params : StratisParams) : Method :=
  match params.type_ with
  | .poolAddData .. => if params.fdOpt.isSome then .poolAddData else .poolInitCache
  | .keyList => if params.fdOpt.isSome then .keyUnset else .keyList
  | type_ => type_.method

theorem names_process (ops : EngineOps σ) (io : ServeIo σ) (params : StratisParams) :
    Names (replyMethod params) (process ops io params) := by
  obtain ⟨type_, fdOpt⟩ := params
  cases type_ with
  | keySet keyDesc =>
    apply names_expectsFd
    · exact fun _ => rfl
    · intro fd
      apply names_reply
      exact fun _ => rfl
  | keyList | poolAddData =>
    apply names_expectsNoFd
    · exact fun _ => rfl
    · apply names_reply
      exact fun _ => rfl
  | poolUnlock unlockMethod uuid =>
    apply names_reply
    exact fun _ => rfl
  | poolList | fsList | report =>
    apply names_readOnly
    exact fun _ => rfl
  | _ =>
    apply names_refused_or_reply
    exact fun _ => rfl

/-- A request whose reply has another name. -/
def Misnamed (params : StratisParams) : Prop :=
  params.type_.method = .poolAddData ∧ params.fdOpt = none ∨
    params.type_.method = .keyList ∧ params.fdOpt.isSome

theorem replyMethod_eq_iff (params : StratisParams) :
    replyMethod params = params.type_.method ↔ ¬ Misnamed params := by
  obtain ⟨type_, fdOpt⟩ := params
  cases type_ <;> cases fdOpt <;> simp [replyMethod, StratisParamType.method, Misnamed]

/-- Every request is answered, if the engine is not stopped. The reply has the name of the request,
and the client takes it, exactly if the request is not one for new data devices without a file
descriptor and not one for the list of keys with one. This is so for every engine, whatever it
returns. -/
theorem reply_named_iff (ops : EngineOps σ) (io : ServeIo σ) (params : StratisParams)
    (x : σ × Descriptors) :
    (process ops io params x).2 = .panic ∨ ∃ ret, (process ops io params x).2 = .ok ret ∧
      (ret.method = params.type_.method ↔ ¬ Misnamed params) ∧
      (doRequest params.type_ ret = .ok ret ↔ ¬ Misnamed params) := by
  rcases names_process ops io params x with hpanic | ⟨ret, hret, hmethod⟩
  · exact Or.inl hpanic
  · have hname : ret.method = params.type_.method ↔ ¬ Misnamed params := by
      rw [hmethod]
      exact replyMethod_eq_iff params
    exact Or.inr ⟨ret, hret, hname, doRequest_eq_ok.trans hname⟩

/-- An engine with one pool, which can be changed at will. -/
def onePool : EngineOps Unit where
  pools _ := [("pool", ⟨1⟩, ⟨0, .ok 0, false, false, ⟨none, none⟩, [], fun _ => none⟩)]
  getPool _ _ := none
  lockedPools _ := []
  createPool _ _ _ := pure .identity
  destroyPool uuid := pure (.deleted uuid)
  renamePool uuid _ := pure (.renamed uuid)
  unlockPool _ _ := pure []
  initCache _ _ _ := pure [⟨2⟩]
  addBlockdevs _ _ _ _ := pure [⟨2⟩]
  createFilesystems _ _ _ := pure []
  destroyFilesystems _ _ _ := pure []
  renameFilesystem _ _ _ _ := pure none
  setKey _ _ := pure .created
  unsetKey _ := pure .deleted
  listKeys _ := .ok []
  engineStateReport _ := .null

/-- Nothing happens around a request, and a key can be read. -/
def quiet : ServeIo Unit := ⟨id, id, ⟨.ok (), .ok [1], .ok 0⟩, fun _ => ""⟩

theorem reply_named_iff_initCache :
    ∃ ret, (process onePool quiet ⟨.poolInitCache "pool" ["/dev/sdb"], none⟩
        ((), ⟨[], [], [], []⟩)).2 = .ok ret ∧
      doRequest (.poolInitCache "pool" ["/dev/sdb"]) ret = .ok ret := by
  obtain hpanic | ⟨ret, hret, -, htaken⟩ := reply_named_iff onePool quiet
    ⟨.poolInitCache "pool" ["/dev/sdb"], none⟩ ((), ⟨[], [], [], []⟩)
  · cases hpanic
  · exact ⟨ret, hret, htaken.mpr (by simp [Misnamed, StratisParamType.method])⟩

/-- Devices are added to the data of a pool; the client is told of a cache, and reports an error. -/
theorem addData_answered_initCache :
    (process onePool quiet ⟨.poolAddData "pool" ["/dev/sdb"], none⟩ ((), ⟨[], [], [], []⟩)).2 =
      .ok (.poolInitCache (true, opOk, opOkStr)) ∧
    doRequest (.poolAddData "pool" ["/dev/sdb"]) (.poolInitCache (true, opOk, opOkStr)) =
      .err (.msg "Request and response types did not match") :=
  ⟨rfl, rfl⟩

end Stratisd.Rpc
