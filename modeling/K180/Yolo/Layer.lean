import K180.Postprocess.Bounds

open threads binary_float k180.postprocess

namespace k180.yolo

/-- An access to the output of the layer, which is addressed in floats. -/
inductive Op where
  | load (address : ℤ)
  | store (address : ℤ) (value : Value)
  | atomic_add (address : ℤ) (value : Value)

abbrev Result : Op → Type
  | .load _ => Value
  | .store _ _ => Unit
  | .atomic_add _ _ => Value

abbrev Output := ℤ → Value

def apply : (op : Op) → Output → Result op × Output
  | .load address, s => (s address, s)
  | .store address value, s => ((), Function.update s address value)
  | .atomic_add address value, s => (s address, Function.update s address (float32.add (s address) value))

abbrev Thread := Program Op Result

def load (address : ℤ) (next : Value → Thread) : Thread := .perform (.load address) next

/-- Stores to members of the object at an address, by their distance from its start. -/
def store_members (data : ℤ) : List (ℕ × Value) → Thread → Thread
  | [], next => next
  | (member, value) :: rest, next => .perform (.store (data + member) value) fun _ => store_members data rest next

structure YoloLayerPlugin where
  mClassCount : ℕ
  mNumberofpoints : ℕ
  mConfthreshkeypoints : Value
  mThreadCount : ℕ
  mYoloV8NetWidth : ℕ
  mYoloV8netHeight : ℕ
  mMaxOutObject : ℕ
  mStrides : List ℕ
  is_segmentation_ : Bool
  is_pose_ : Bool

/-- One of the grids of the network's output, with its tensor. -/
structure Level where
  input : ℤ → Value
  grid_h : ℕ
  grid_w : ℕ
  stride : ℕ
  numElements : ℕ

def Level.total_grid (l : Level) : ℕ := l.grid_h * l.grid_w

variable (expf : Value → Value) (p : YoloLayerPlugin) (l : Level) (idx : ℕ)

section Cell

/-- `Logist`, and `sigmoid` -/
def Logist (data : Value) : Value :=
  float32.div (float32.of_rat 1) (float32.add (float32.of_rat 1) (expf (float32.sub (float32.of_rat 0) data)))

def info_len : ℕ :=
  4 + p.mClassCount + (if p.is_segmentation_ then 32 else 0) + (if p.is_pose_ then p.mNumberofpoints * 3 else 0)

/-- `curInput[elemIdx + channel * total_grid]` -/
def cur_input (channel : ℕ) : Value :=
  let batchIdx := idx / l.total_grid
  let elemIdx := idx % l.total_grid
  l.input (batchIdx * l.total_grid * info_len p + (elemIdx + channel * l.total_grid))

/-- The loop over the classes: the greatest probability, and the first class that has it. -/
def max_cls_prob : Value × ℕ :=
  (List.range p.mClassCount).foldl
    (fun best i =>
      let prob := Logist expf (cur_input p l idx (4 + i))
      if float32.lt best.1 prob then (prob, i) else best)
    (float32.of_rat 0, 0)

/-- `max_cls_prob < 0.1`, where `0.1` is a `double` -/
def ignored : Bool := (max_cls_prob expf p l idx).1.lt (binary64.round (1 / 10))

def row : ℕ := idx % l.total_grid / l.grid_w

def col : ℕ := idx % l.total_grid % l.grid_w

/-- A side of the box: the centre of the cell, moved by a distance, in pixels of the network's input. -/
def side (move : Value → Value → Value) (position channel : ℕ) : Value :=
  float32.mul (move (float32.add (float32.of_rat position) (float32.of_rat (1 / 2))) (cur_input p l idx channel))
    (float32.of_rat l.stride)

def bbox : Ltrb Value where
  left := side p l idx float32.sub (col l idx) 0
  top := side p l idx float32.sub (row l idx) 1
  right := side p l idx float32.add (col l idx) 2
  bottom := side p l idx float32.add (row l idx) 3

/-- The members that are written first, in the order of the stores. -/
def members : List (ℕ × Value) :=
  let box := bbox p l idx
  [(4, (max_cls_prob expf p l idx).1), (5, float32.of_rat (max_cls_prob expf p l idx).2), (0, box.left), (1, box.top),
    (2, box.right), (3, box.bottom)] ++
  if p.is_segmentation_ then (List.range 32).map fun k => (6 + k, cur_input p l idx (4 + p.mClassCount + k)) else []

/-- The channel of the first number of a keypoint. -/
def keypoint_channel (kpt : ℕ) : ℕ := 4 + p.mClassCount + (if p.is_segmentation_ then 32 else 0) + kpt * 3

/-- A coordinate of a keypoint, computed as a `double`. -/
def keypoint_coordinate (channel position : ℕ) : Value :=
  binary32.convert (binary64.mul
    (binary64.add (binary64.mul (cur_input p l idx channel) (.fin 2)) (binary64.ofInt position))
    (binary64.ofInt l.stride))

def kpt_x (kpt : ℕ) : Value := keypoint_coordinate p l idx (keypoint_channel p kpt) (col l idx)

def kpt_y (kpt : ℕ) : Value := keypoint_coordinate p l idx (keypoint_channel p kpt + 1) (row l idx)

def kpt_confidence (kpt : ℕ) : Value := Logist expf (cur_input p l idx (keypoint_channel p kpt + 2))

/-- What is stored of a keypoint. -/
def keypoint (is_within_bbox : Bool) (kpt : ℕ) : List (ℕ × Value) :=
  let confidence := kpt_confidence expf p l idx kpt
  let values :=
    if float32.lt confidence p.mConfthreshkeypoints || !is_within_bbox then
      (float32.of_rat (-1), float32.of_rat (-1), float32.of_rat (-1))
    else (kpt_x p l idx kpt, kpt_y p l idx kpt, confidence)
  [(38 + kpt * 3, values.1), (38 + kpt * 3 + 1, values.2.1), (38 + kpt * 3 + 2, values.2.2)]

end Cell

/-- `is_within_bbox`, with the box read back from the output. -/
def load_within (data : ℤ) (x y : Value) (next : Bool → Thread) : Thread :=
  load data fun left =>
    if float32.le left x then
      load (data + 2) fun right =>
        if float32.le x right then
          load (data + 1) fun top =>
            if float32.le top y then load (data + 3) fun bottom => next (float32.le y bottom) else next false
        else next false
    else next false

/-- The loop over the keypoints. -/
def store_keypoints (data : ℤ) : List ℕ → Thread
  | [] => .done
  | kpt :: rest =>
    load_within data (kpt_x p l idx kpt) (kpt_y p l idx kpt) fun is_within_bbox =>
      store_members data (keypoint expf p l idx is_within_bbox kpt) (store_keypoints data rest)

/-- The floats of the output for one image. -/
def output_elem : ℕ := 1 + p.mMaxOutObject * predict_element.toNat

def CalDetection : Thread :=
  if l.numElements ≤ idx then .done
  else
    let outputIdx := ((idx / l.total_grid * output_elem p : ℕ) : ℤ)
    if ignored expf p l idx then .done
    else
      .perform (.atomic_add outputIdx (float32.of_rat 1)) fun old =>
        let count := float32.to_int old
        if p.mMaxOutObject ≤ count then .done
        else
          let data := outputIdx + 1 + count * predict_element
          store_members data (members expf p l idx)
            (if p.is_pose_ then store_keypoints expf p l idx data (List.range p.mNumberofpoints) else .done)

section Host

abbrev Stream := List (Work Op Output Result)

/-- The grids of `forwardGpu`, one for each stride. -/
def levels (inputs : ℕ → ℤ → Value) (batchSize : ℕ) : List Level :=
  p.mStrides.zipIdx.map fun (stride, i) =>
    { input := inputs i
      grid_h := p.mYoloV8netHeight / stride
      grid_w := p.mYoloV8NetWidth / stride
      stride := stride
      numElements := p.mYoloV8netHeight / stride * (p.mYoloV8NetWidth / stride) * batchSize }

/-- The launches for the grids, and the number of threads of a block that is left; `none` for a division by zero. -/
def launch_levels : ℕ → List Level → Option (Stream × ℕ)
  | mThreadCount, [] => some ([], mThreadCount)
  | mThreadCount, l :: rest =>
    -- a member, so the next launches have no more threads either
    let mThreadCount := if l.numElements < mThreadCount then l.numElements else mThreadCount
    if mThreadCount = 0 then none
    else
      let blocks := (l.numElements + mThreadCount - 1) / mThreadCount
      (launch_levels mThreadCount rest).map fun (works, left) =>
        (.kernel (blocks * mThreadCount) (CalDetection expf p l) :: works, left)

/-- The `cudaMemsetAsync` calls. -/
def clear_counts (batchSize : ℕ) (s : Output) : Output := fun address =>
  if address = 0 ∨ ∃ idx < batchSize, address = (idx * output_elem p : ℕ) then .fin 0 else s address

def forwardGpu (inputs : ℕ → ℤ → Value) (batchSize : ℕ) : Option (Stream × YoloLayerPlugin) :=
  (launch_levels expf p p.mThreadCount (levels p inputs batchSize)).map fun (works, mThreadCount) =>
    (.set (clear_counts p batchSize) :: works, { p with mThreadCount })

end Host

end k180.yolo
