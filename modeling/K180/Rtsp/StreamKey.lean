import Mathlib

namespace k180

inductive StreamGroup where
  | S1
  | S2
deriving DecidableEq

inductive StreamView where
  | V1234
  | V1
  | V2
  | V3
  | V4
deriving DecidableEq

structure StreamKey where
  g : StreamGroup
  v : StreamView
deriving DecidableEq

instance : Fintype StreamGroup where
  elems := {.S1, .S2}
  complete g := by cases g <;> decide

instance : Fintype StreamView where
  elems := {.V1234, .V1, .V2, .V3, .V4}
  complete v := by cases v <;> decide

instance : Fintype StreamKey :=
  Fintype.ofEquiv (StreamGroup × StreamView)
    { toFun := fun p => ⟨p.1, p.2⟩
      invFun := fun k => (k.g, k.v)
      left_inv := fun _ => rfl
      right_inv := fun _ => rfl }

def StreamGroup.toNat : StreamGroup → ℕ
  | S1 => 0
  | S2 => 1

def StreamView.toNat : StreamView → ℕ
  | V1234 => 0
  | V1 => 1
  | V2 => 2
  | V3 => 3
  | V4 => 4

def group_name (g : StreamGroup) : String := if g = .S1 then "s1" else "s2"

def view_number (v : StreamView) : ℕ := if v = .V1234 then 1234 else v.toNat

def kViews : ℕ := 5
def kStreams : ℕ := 10
def kH264Views : ℕ := 4
def kH264Streams : ℕ := 8

def stream_index (k : StreamKey) : ℕ := k.g.toNat * kViews + k.v.toNat

/-- Only ever called with one of the four single views. -/
def h264_index (g : StreamGroup) (v : StreamView) : ℕ := g.toNat * kH264Views + (v.toNat - 1)

/-- A stream with a hub and a factory of its own. -/
inductive Stream where
  | h265 (k : StreamKey)
  | h264 (g : StreamGroup) (v : StreamView) (hview : v ≠ .V1234)
deriving DecidableEq

theorem stream_index_inj : ∀ k k' : StreamKey, stream_index k = stream_index k' → k = k' := by
  decide

theorem stream_index_lt : ∀ k : StreamKey, stream_index k < kStreams := by
  decide

theorem exists_stream_index : ∀ sid < kStreams, ∃ k : StreamKey, stream_index k = sid := by
  decide

theorem h264_index_inj : ∀ g g' v v', v ≠ .V1234 → v' ≠ .V1234 →
    h264_index g v = h264_index g' v' → g = g' ∧ v = v' := by
  decide

theorem h264_index_lt : ∀ g v, h264_index g v < kH264Streams := by
  decide

theorem exists_h264_index : ∀ sid < kH264Streams, ∃ g v, v ≠ .V1234 ∧ h264_index g v = sid := by
  decide

end k180
