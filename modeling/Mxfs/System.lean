import Mxfs.Lib.Run
import Mxfs.Append
import Mxfs.Mount
import Mxfs.Read

/-!
# Mxfs.System

The file system as a transition system: an instance over a device, and the
calls a client makes.  A run starts from a mount of a device and applies calls
in any order; `Op.IsLog` singles out the append and flush calls.
-/

namespace Mxfs

open Lib

/-- A mounted instance and its device. -/
structure World (σ : Type) where
  inst : Inst
  dev : σ

/-- The calls of a client.  `remount` is a release followed by the scan of
`mxfs_create_instance` over the same device, which has been started before; a client
whose mounts start the part anew is served by `serve`. -/
inductive Op where
  | append (layer : UInt8) (tmm : UInt64) (buffer : List UInt8)
  | flush
  | remount
  | erase (block : Nat)
deriving DecidableEq, Repr

namespace Op

/-- An append or a flush. -/
def IsLog : Op → Prop
  | append _ _ _ | flush => True
  | remount | erase _ => False

end Op

/-- `mxfs_erase` (`mxfs_erase.cc`). -/
def mxfsErase (D : Driver σ) (dev : σ) (block : Nat) : Int × σ := D.erase dev block

/-- The device as a mount finds and leaves it. -/
def World.mounted (B : Build) (D : Driver σ) (dev : σ) : World σ :=
  let x := mount B D dev
  ⟨x.1, x.2⟩

theorem World.mounted_inst (B : Build) (D : Driver σ) (dev : σ) :
    (World.mounted B D dev).inst = (mount B D dev).1 := by
  simp only [World.mounted]

theorem World.mounted_dev (B : Build) (D : Driver σ) (dev : σ) :
    (World.mounted B D dev).dev = (mount B D dev).2 := by
  simp only [World.mounted]

/-- One call: its return code and the world after it. -/
def call (B : Build) (D : Driver σ) (w : World σ) : Op → Int × World σ
  | .append layer tmm buffer =>
    let (ret, inst, dev) := mxfsAppend B D w.inst w.dev layer tmm buffer
    (ret, ⟨inst, dev⟩)
  | .flush =>
    let (ret, inst, dev) := mxfsFlush B D w.inst w.dev
    (ret, ⟨inst, dev⟩)
  | .remount => (OK, World.mounted B D w.dev)
  | .erase block =>
    let (ret, dev) := mxfsErase D w.dev block
    (ret, { w with dev := dev })

/-- The world after a call. -/
def next (B : Build) (D : Driver σ) (w : World σ) (op : Op) : World σ := (call B D w op).2

/-- The world after a mount of `dev` and the calls `ops`. -/
def session (B : Build) (D : Driver σ) (dev : σ) (ops : List Op) : World σ :=
  run (next B D) (World.mounted B D dev) ops

theorem session_concat (B : Build) (D : Driver σ) (dev : σ) (ops : List Op) (op : Op) :
    session B D dev (ops ++ [op]) = next B D (session B D dev ops) op := by
  rw [session, run_append]; rfl

/-- The device `d` under a logging driver, nothing recorded yet. -/
def Logged.start (d : σ) : Logged σ := ⟨d, []⟩

/-- A session over the page array with the content `f`, its requests recorded. -/
def pageSession (B : Build) (M : Medium) (f : Flash) (ops : List Op) : World (Logged Flash) :=
  session B (pageArray M).logged (Logged.start f) ops

/-- The payloads of `layer` the call accepted: one if it is an append to the
layer that returned `OK`, none otherwise. -/
def accepted (B : Build) (D : Driver σ) (layer : Layer) (w : World σ) : Op → List (List UInt8)
  | .append l tmm buffer =>
    if l.toNat = layer.toNat ∧ (call B D w (.append l tmm buffer)).1 = OK then [buffer] else []
  | _ => []

end Mxfs
