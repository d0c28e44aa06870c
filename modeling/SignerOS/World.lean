import SignerOS.Session
import SignerOS.WalletExport
import Mathlib.Logic.Function.Basic

/-!
# One slot, many users

The process as it is: any number of `PsbtEngine` objects and the wallet export all use the
one key slot of `processMasterKey()`. A `Session` is what one engine sees of it.

Each engine comes with a history variable, the key its summary was last evaluated with. It
is read by no operation; it is what a verdict in the summary rests on.

* `Op.user`, the engine an operation belongs to;
* `step_station_of_ne`, an operation changes nobody else's engine.
-/

namespace SignerOS

/-! ## The key a summary was evaluated with -/

/-- The key the summary has last been evaluated with once `op` is performed, if it was
`before` until then. `none` after a clearing, which evaluates nothing. -/
def Session.evaluatedWith (w : Wally) (s : Session) (before : Option ExtKey) :
    Session.Op → Option ExtKey
  | .load path file =>
    match (s.engine.load w s.slot path file).1 with
    | .ok () => s.slot.resident
    | .error _ => none
  | .unload | .clearKey => none
  | .setKeyFromMnemonic mnemonic passphrase =>
    if s.engine.psbt.isSome then (s.engine.setKeyFromMnemonic w mnemonic passphrase).2.1.resident
    else none
  | .setKeyFromXprv xprv =>
    if s.engine.psbt.isSome then (s.engine.setKeyFromXprv w xprv).2.1.resident else none
  | .sign =>
    match (s.engine.sign w s.slot).1 with
    | .ok _ => s.slot.resident
    | .error _ => before
  | .writeResult .. => before

/-- An engine, and the key its summary was last evaluated with. -/
structure Station where
  engine : PsbtEngine
  evaluatedWith : Option ExtKey

/-- The summary shows verdicts made with a key. -/
def Station.Checked (st : Station) : Prop := st.engine.summary.ownershipChecked = true

/-- The process: the key slot, and the engines that exist. -/
structure World where
  slot : KeySlot
  stations : ℕ → Option Station

namespace World

/-- A process that has just started. -/
def start : World := ⟨.clear, fun _ => none⟩

/-- What happens in the process. -/
inductive Op
  | construct (i : ℕ) (network : Network)
  | destruct (i : ℕ)
  | engine (i : ℕ) (op : Session.Op)
  | buildWalletExport (mnemonic passphrase : String) (network : Network) (account : UInt32)

/-- The engine an operation is one of. -/
def Op.user : Op → Option ℕ
  | .construct i _ | .destruct i | .engine i _ => some i
  | .buildWalletExport .. => none

/-- What an engine sees of the process. -/
def session (world : World) (st : Station) : Session := ⟨world.slot, st.engine⟩

/-- One operation. One on an engine that does not exist, or constructing one that does, is
no operation at all. -/
def step (w : Wally) (world : World) : Op → World
  | .construct i network =>
    match world.stations i with
    | some _ => world
    | none =>
      { world with
        stations := Function.update world.stations i (some ⟨{ network := network }, none⟩) }
  | .destruct i =>
    match world.stations i with
    | none => world
    | some st =>
      -- `~PsbtEngine`: `unload`, then `clearKey`
      ⟨st.engine.unload.clearKey.1, Function.update world.stations i none⟩
  | .engine i op =>
    match world.stations i with
    | none => world
    | some st =>
      let s := (world.session st).step w op
      ⟨s.slot, Function.update world.stations i
        (some ⟨s.engine, (world.session st).evaluatedWith w st.evaluatedWith op⟩)⟩
  | .buildWalletExport mnemonic passphrase network account =>
    { world with
      slot := (SignerOS.buildWalletExport w world.slot mnemonic passphrase network account).2.2 }

/-! ## What an operation changes -/

section
variable {w : Wally} {world : World} {i : ℕ} {op : Op}

/-- An operation changes nobody else's engine. -/
theorem step_station_of_ne (h : op.user ≠ some i) :
    (world.step w op).stations i = world.stations i := by
  cases op with
  | construct j _ | destruct j | engine j _ =>
    have hne : i ≠ j := fun hij => h (congrArg some hij.symm)
    unfold step
    dsimp only
    split
    · rfl
    · exact Function.update_of_ne hne _ _
  | buildWalletExport => rfl

/-- What an operation on an engine that exists leaves of it. -/
theorem step_engine_station {st : Station} {op : Session.Op} (h : world.stations i = some st) :
    world.step w (.engine i op) =
      ⟨((world.session st).step w op).slot, Function.update world.stations i
        (some ⟨((world.session st).step w op).engine,
          (world.session st).evaluatedWith w st.evaluatedWith op⟩)⟩ := by
  rw [step, h]

end

end World

end SignerOS
