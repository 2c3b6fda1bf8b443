import K180.BinaryFloat.Operations
import K180.Threads.Program

open threads binary_float

namespace k180.postprocess

/-- `float` as the kernels use it. -/
structure Arithmetic (F : Type) where
  of_rat : ℚ → F
  to_int : F → ℤ
  lt : F → F → Bool
  le : F → F → Bool
  eq : F → F → Bool
  add : F → F → F
  sub : F → F → F
  mul : F → F → F
  div : F → F → F
  max : F → F → F
  min : F → F → F

def float32 : Arithmetic Value where
  of_rat := binary32.round
  to_int := Value.to_int32
  lt := Value.lt
  le := Value.le
  eq := Value.eq
  add := binary32.add
  sub := binary32.sub
  mul := binary32.mul
  div := binary32.div
  max := Value.max
  min := Value.min

def rational : Arithmetic ℚ where
  of_rat q := q
  to_int := Value.truncate
  lt x y := x < y
  le x y := x ≤ y
  eq x y := x = y
  add := (· + ·)
  sub := (· - ·)
  mul := (· * ·)
  div := (· / ·)
  max := Max.max
  min := Min.min

/-- A `bbox[4]` that holds left, top, right and bottom. -/
structure Ltrb (F : Type) where
  left : F
  top : F
  right : F
  bottom : F
deriving DecidableEq

/-- A `bbox[4]` that holds left, top, width and height. -/
structure Xywh (F : Type) where
  x : F
  y : F
  w : F
  h : F
deriving DecidableEq

structure Detection (F : Type) where
  bbox : Xywh F
  conf : F
  class_id : F
deriving DecidableEq

def kMaxNumOutputBbox : ℤ := 40

def kDecodeBBoxElement : ℤ := 7

/-- `sizeof(Detection) / sizeof(float)`: the box, the confidence, the class, the mask and the keypoints. -/
def predict_element : ℤ := 4 + 1 + 1 + 32 + 51

def kInputW : ℤ := 640

def kInputH : ℤ := 640

/-- `THREADS_PER_BLOCK` -/
def threads_per_block : ℤ := 256

/-- The buffers on the device, addressed in floats and in detections. -/
structure Device (F : Type) where
  decode_ptr_device : ℤ → F
  det_device : ℕ → Detection F
  det_count_device : ℕ

/-- An access to the buffers. -/
inductive Op (F : Type) where
  | load (address : ℤ)
  | store (address : ℤ) (value : F)
  | atomic_add (address : ℤ) (value : F)
  | atomic_add_count (n : ℕ)
  | store_det (index : ℕ) (det : Detection F)

abbrev Result {F : Type} : Op F → Type
  | .load _ => F
  | .store _ _ => Unit
  | .atomic_add _ _ => F
  | .atomic_add_count _ => ℕ
  | .store_det _ _ => Unit

variable {F : Type} (A : Arithmetic F)

def apply : (op : Op F) → Device F → Result op × Device F
  | .load address, s => (s.decode_ptr_device address, s)
  | .store address value, s =>
    ((), { s with decode_ptr_device := Function.update s.decode_ptr_device address value })
  | .atomic_add address value, s => (s.decode_ptr_device address, { s with
      decode_ptr_device := Function.update s.decode_ptr_device address (A.add (s.decode_ptr_device address) value) })
  | .atomic_add_count n, s => (s.det_count_device, { s with det_count_device := s.det_count_device + n })
  | .store_det index det, s => ((), { s with det_device := Function.update s.det_device index det })

abbrev Thread (F : Type) := Program (Op F) Result

section Thread

def load (address : ℤ) (next : F → Thread F) : Thread F := .perform (.load address) next

/-- Four floats from an address on. -/
def load_box (address : ℤ) (next : Ltrb F → Thread F) : Thread F :=
  load address fun left => load (address + 1) fun top => load (address + 2) fun right =>
    load (address + 3) fun bottom => next ⟨left, top, right, bottom⟩

/-- Floats from an address on. -/
def store_all (address : ℤ) : List F → Thread F
  | [] => .done
  | value :: rest => .perform (.store address value) fun _ => store_all (address + 1) rest

end Thread

def decode_kernel (predict : ℤ → F) (predict_element : ℤ) (confidence_threshold : F) (bbox_element max_objects : ℤ)
    (idx : ℕ) : Thread F :=
  let count := A.to_int (predict 0)
  if count ≤ idx then .done
  else
    let pitem := 1 + idx * predict_element
    let confidence := predict (pitem + 4)
    if A.lt confidence confidence_threshold then .done
    else
      -- counted before it is known whether there is room
      .perform (.atomic_add 0 (A.of_rat 1)) fun old =>
        let out_index := A.to_int old
        if max_objects ≤ out_index then .done
        else
          store_all (1 + out_index * bbox_element)
            [predict pitem, predict (pitem + 1), predict (pitem + 2), predict (pitem + 3), confidence,
              predict (pitem + 5), A.of_rat 1]

def box_iou (a b : Ltrb F) : F :=
  let cleft := A.max a.left b.left
  let ctop := A.max a.top b.top
  let cright := A.min a.right b.right
  let cbottom := A.min a.bottom b.bottom
  let zero := A.of_rat 0
  let c_area := A.mul (A.max (A.sub cright cleft) zero) (A.max (A.sub cbottom ctop) zero)
  if A.le c_area zero then zero
  else
    let a_area := A.mul (A.max (A.sub a.right a.left) zero) (A.max (A.sub a.bottom a.top) zero)
    let b_area := A.mul (A.max (A.sub b.right b.left) zero) (A.max (A.sub b.bottom b.top) zero)
    let denom := A.sub (A.add a_area b_area) c_area
    if A.le denom zero then zero else A.div c_area denom

/-- The loop over `i` of `nms_kernel`. -/
def nms_loop (bbox_element : ℤ) (nms_threshold : F) (idx : ℕ) : List ℕ → Thread F
  | [] => .done
  | i :: rest =>
    if i = idx then nms_loop bbox_element nms_threshold idx rest
    else
      let pcurrent := 1 + idx * bbox_element
      let pitem := 1 + i * bbox_element
      load (pitem + 5) fun item_class => load (pcurrent + 5) fun current_class =>
        if !A.eq item_class current_class then nms_loop bbox_element nms_threshold idx rest
        else
          load (pitem + 4) fun item_conf => load (pcurrent + 4) fun current_conf =>
            if A.lt current_conf item_conf || (A.eq item_conf current_conf && i < idx) then
              load_box pcurrent fun current => load_box pitem fun item =>
                if A.lt nms_threshold (box_iou A current item) then
                  .perform (.store (pcurrent + 6) (A.of_rat 0)) fun _ => .done
                else nms_loop bbox_element nms_threshold idx rest
            else nms_loop bbox_element nms_threshold idx rest

def nms_kernel (bbox_element : ℤ) (nms_threshold : F) (idx : ℕ) : Thread F :=
  load 0 fun count_f =>
    let count := A.to_int count_f
    if count ≤ idx then .done
    else
      load (1 + idx * bbox_element + 6) fun keep_flag =>
        -- to the counter, which may have gone past the room there is
        if A.to_int keep_flag ≠ 1 then .done else nms_loop A bbox_element nms_threshold idx (List.range count.toNat)

def map_raw_bbox_to_image_ltrb_device (bbox : Ltrb F) (img_w img_h input_w input_h : ℤ) : Ltrb F :=
  let r_w := A.div (A.of_rat input_w) (A.mul (A.of_rat img_w) (A.of_rat 1))
  let r_h := A.div (A.of_rat input_h) (A.mul (A.of_rat img_h) (A.of_rat 1))
  let unmapped : Ltrb F :=
    if A.lt r_w r_h then
      let pad := A.div (A.sub (A.of_rat input_h) (A.mul r_w (A.of_rat img_h))) (A.of_rat 2)
      { left := A.div bbox.left r_w
        top := A.div (A.sub bbox.top pad) r_w
        right := A.div bbox.right r_w
        bottom := A.div (A.sub bbox.bottom pad) r_w }
    else
      let pad := A.div (A.sub (A.of_rat input_w) (A.mul r_h (A.of_rat img_w))) (A.of_rat 2)
      { left := A.div (A.sub bbox.left pad) r_h
        top := A.div bbox.top r_h
        right := A.div (A.sub bbox.right pad) r_h
        bottom := A.div bbox.bottom r_h }
  let clamp (v : F) (size : ℤ) : F := A.max (A.of_rat 0) (A.min v (A.sub (A.of_rat size) (A.of_rat 1)))
  { left := clamp unmapped.left img_w
    top := clamp unmapped.top img_h
    right := clamp unmapped.right img_w
    bottom := clamp unmapped.bottom img_h }

def convert_ltrb_to_xywh_device (bbox : Ltrb F) : Xywh F where
  x := bbox.left
  y := bbox.top
  w := A.max (A.of_rat 0) (A.sub bbox.right bbox.left)
  h := A.max (A.of_rat 0) (A.sub bbox.bottom bbox.top)

def finalize_detections_kernel (bbox_element img_w img_h input_w input_h max_output : ℤ) (idx : ℕ) : Thread F :=
  load 0 fun count_f =>
    let count := A.to_int count_f
    if count ≤ idx ∨ max_output ≤ idx then .done
    else
      let p := 1 + idx * bbox_element
      load (p + 6) fun keep_flag =>
        if A.to_int keep_flag ≠ 1 then .done
        else
          load_box p fun bbox => load (p + 4) fun conf => load (p + 5) fun class_id =>
            let det : Detection F := {
              bbox := convert_ltrb_to_xywh_device A
                (map_raw_bbox_to_image_ltrb_device A bbox img_w img_h input_w input_h)
              conf := conf
              class_id := class_id }
            .perform (.atomic_add_count 1) fun out_idx =>
              if (out_idx : ℤ) < max_output then .perform (.store_det out_idx det) fun _ => .done else .done

section Host

abbrev Stream (F : Type) := List (Work (Op F) (Device F) Result)

def cuda_decode (predict : ℤ → F) (num_bboxes : ℤ) (confidence_threshold : F)
    (predict_element bbox_element max_objects : ℤ) : Stream F :=
  if num_bboxes ≤ 0 ∨ max_objects ≤ 0 then []
  else
    let threads := threads_per_block
    let blocks := (num_bboxes + threads - 1) / threads
    [.kernel (blocks * threads).toNat
      (decode_kernel A predict predict_element confidence_threshold bbox_element max_objects)]

def cuda_nms (bbox_element : ℤ) (nms_threshold : F) (max_objects : ℤ) : Stream F :=
  if max_objects ≤ 0 then []
  else
    let threads := if max_objects < threads_per_block then max_objects else threads_per_block
    let blocks := (max_objects + threads - 1) / threads
    [.kernel (blocks * threads).toNat (nms_kernel A bbox_element nms_threshold)]

def cuda_finalize_detections (bbox_element img_w img_h input_w input_h max_output : ℤ) : Stream F :=
  if max_output ≤ 0 then []
  else
    let threads := threads_per_block
    let blocks := (max_output + threads - 1) / threads
    [.set fun s => { s with det_count_device := 0 },
      .kernel (blocks * threads).toNat
        (finalize_detections_kernel A bbox_element img_w img_h input_w input_h max_output)]

/-- The `cudaMemsetAsync` of `decode_ptr_device`. -/
def clear_decode_ptr (s : Device F) : Device F :=
  { s with decode_ptr_device := fun address =>
      if 0 ≤ address ∧ address < 1 + kMaxNumOutputBbox * kDecodeBBoxElement then A.of_rat 0
      else s.decode_ptr_device address }

/-- What `infer_gpu` has in the stream behind the network, whose output is `predict`. -/
def infer_gpu (predict : ℤ → F) (model_bboxes : ℤ) (cuda_post_process : String) : Stream F :=
  if cuda_post_process = "g" then
    .set (clear_decode_ptr A) ::
      (cuda_decode A predict model_bboxes (A.of_rat (1 / 2)) predict_element kDecodeBBoxElement kMaxNumOutputBbox ++
        cuda_nms A kDecodeBBoxElement (A.of_rat (45 / 100)) kMaxNumOutputBbox)
  else []

/-- The works of `_inference_gpu` on the buffers, for an image that is not empty. -/
def inference_gpu (predict : ℤ → F) (model_bboxes : ℤ) (cuda_post_process : String) (cols rows : ℤ) : Stream F :=
  infer_gpu A predict model_bboxes cuda_post_process ++
    cuda_finalize_detections A kDecodeBBoxElement cols rows kInputW kInputH kMaxNumOutputBbox

end Host

end k180.postprocess
