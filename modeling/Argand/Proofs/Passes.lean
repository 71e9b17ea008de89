import Argand.Painting
import Argand.Proofs.Viewport
import Argand.TwinBuffer

/-!
# Passes over cells

A pass gives every cell the value for its index, whoever does it. So two passes that agree on the
indices of the cells have the same result (`Workers.map_congr`), and so have two paintings of a viewport
that agree on its pixels (`Viewport.paint_congr`). A painting has a color for every pixel, so nothing
remains of the picture it is drawn on (`Viewport.paint_target`), and the color of a pixel is the one of its
offset (`Viewport.get?_paint`).

A pass whose cells may fail has a result if no cell fails (`Workers.map?_eq_none`), and each cell has its own value in
it (`Workers.map?_eq_some`). On a buffer it is then the pass of these values (`TwinBuffer.pass?_eq_some_pass`).
-/

namespace Argand

namespace Workers

variable {α : Type} {n : Nat} {f g : Nat → α}

theorem getElem?_map (w : Workers) {i : Nat} (h : i < n) : (w.map n f)[i]? = some (f i) := by
  rw [← Array.getElem?_toList, toList_map, List.getElem?_map, List.getElem?_range h, Option.map_some]

theorem map_eq_ofFn (w : Workers) {m : Nat} (h : m = n) : w.map m f = Array.ofFn fun i : Fin n => f i := by
  subst h
  apply Array.ext'
  rw [toList_map]
  apply List.ext_getElem <;> simp

theorem map_congr (w w' : Workers) (h : ∀ i < n, f i = g i) : w.map n f = w'.map n g := by
  apply Array.ext'
  rw [toList_map, toList_map]
  apply List.map_congr_left
  intro i hi
  exact h i (List.mem_range.mp hi)

/-! ## Cells that may fail -/

theorem mapM_id_eq_some : ∀ {cells : List (Option α)} {values : List α},
    cells.mapM id = some values ↔ cells = values.map some
  | [], [] => iff_of_true rfl rfl
  | [], _ :: _ => iff_of_false (by rintro ⟨⟩) (by rintro ⟨⟩)
  | cell :: cells, values => by
    rw [List.mapM_cons]
    refine Option.bind_eq_some_iff.trans ⟨?_, fun h => ?_⟩
    · rintro ⟨first, rfl, rest⟩
      obtain ⟨others, computed, gathered⟩ := Option.bind_eq_some_iff.mp rest
      cases gathered
      rw [mapM_id_eq_some.mp computed]
      rfl
    · cases values with
      | nil => cases h
      | cons first others =>
        cases h
        exact ⟨first, rfl, Option.bind_eq_some_iff.mpr ⟨others, mapM_id_eq_some.mpr rfl, rfl⟩⟩

/-- If there is a result, every cell has its value in it. -/
theorem map?_eq_some (w : Workers) {f : Nat → Option α} {out : Vector α n} :
    w.map? n f = some out ↔ ∀ (i : Nat) (h : i < n), f i = some out[i] := by
  have lists : w.map? n f = some out ↔ (List.range n).map f = out.toList.map some := by
    have arrays : (w.map? n f).map Vector.toArray = (w.map n f).mapM id :=
      @Vector.toArray_mapM Option _ _ _ _ _ id ⟨w.map n f, size_map w n f⟩
    rw [← toList_map w, ← mapM_id_eq_some, ← Array.toList_mapM, ← arrays]
    cases w.map? n f with
    | none => simp
    | some found => simp [Vector.toList]
  rw [lists, List.ext_getElem_iff]
  simp

/-- There is no result exactly if some cell fails. -/
theorem map?_eq_none (w : Workers) {f : Nat → Option α} : w.map? n f = none ↔ ∃ i < n, f i = none := by
  constructor
  · intro missing
    by_contra all
    push Not at all
    have values := fun i : Fin n => Option.ne_none_iff_exists'.mp (all i i.isLt)
    choose value computed using values
    have found : w.map? n f = some (.ofFn value) := by
      refine w.map?_eq_some.mpr fun i h => ?_
      rw [Vector.getElem_ofFn]
      exact computed ⟨i, h⟩
    rw [missing] at found
    cases found
  · rintro ⟨i, h, failed⟩
    cases outcome : w.map? n f with
    | none => rfl
    | some out =>
      rw [w.map?_eq_some.mp outcome i h] at failed
      cases failed

end Workers

namespace TwinBuffer

variable {α : Type} {b : TwinBuffer α} {w : Workers} {cell : Nat → Array α → Option α}

theorem getElem?_front_of_pass? {after : { after : TwinBuffer α // after.size = b.size }}
    (h : b.pass? w cell = some after) {i : Nat} (hi : i < b.size) : after.1.front[i]? = cell i b.front := by
  obtain ⟨cells, computed, rfl⟩ := Option.map_eq_some_iff.mp h
  rw [w.map?_eq_some.mp computed i hi]
  exact (Vector.getElem?_toArray ..).trans (Vector.getElem?_eq_getElem hi)

/-- A pass in which no cell fails is a pass. -/
theorem pass?_eq_some_pass {value : Nat → Array α → α}
    (h : ∀ i < b.size, cell i b.front = some (value i b.front)) :
    ∃ same, b.pass? w cell = some ⟨b.pass w value, same⟩ := by
  have computed : w.map? b.size (fun i => cell i b.front) =
      some ⟨w.map b.size fun i => value i b.front, w.size_map ..⟩ := by
    refine w.map?_eq_some.mpr fun i hi => (h i hi).trans ?_
    exact (w.getElem?_map (f := fun i => value i b.front) hi).symm.trans (Array.getElem?_eq_getElem _)
  refine ⟨w.size_map .., ?_⟩
  rw [pass?, computed]
  rfl

theorem pass?_eq_none : b.pass? w cell = none ↔ ∃ i < b.size, cell i b.front = none := by
  rw [pass?, Option.map_eq_none_iff, w.map?_eq_none]

end TwinBuffer

/-- A picture with a color for each of its pixels is those colors. -/
theorem Picture.paint_fit (p : Picture) (width height : Nat) (colors : Array (Color UInt8))
    (h : width * height ≤ colors.size) :
    (p.fit width height).paint colors =
      ⟨width, height, colors.extract 0 (width * height),
        by rw [Array.size_extract, Nat.min_eq_left h, Nat.sub_zero]⟩ := by
  have covered : ∀ old : Array (Color UInt8), old.size = width * height →
      (old.mapIdx fun i c => colors.getD i c) = colors.extract 0 (width * height) := by
    intro old hold
    apply Array.ext
    · simp [hold, h]
    · intro i hi _
      rw [Array.size_mapIdx] at hi
      rw [Array.getElem_mapIdx, Array.getD_eq_getD_getElem?, Array.getElem?_eq_getElem (by omega),
        Option.getD_some, Array.getElem_extract]
      simp only [Nat.zero_add]
  rw [fit]
  split
  · rename_i sides
    obtain ⟨width', height', old, hold⟩ := p
    obtain ⟨rfl, rfl⟩ := sides
    simp only [paint, covered old hold]
  · simp only [paint, black, covered _ Array.size_replicate]

@[simp] theorem Picture.width_fit (p : Picture) (width height : Nat) :
    (p.fit width height).width = width := by
  rw [fit]
  split
  · rename_i sides
    exact sides.1
  · rfl

@[simp] theorem Picture.height_fit (p : Picture) (width height : Nat) :
    (p.fit width height).height = height := by
  rw [fit]
  split
  · rename_i sides
    exact sides.2
  · rfl

namespace Viewport

variable {R K : Type} [Zero R] [LT R] [Finiteness R] [Channel K] (v : Viewport R)

/-- The sides of a picture are not larger than those of its viewport. -/
theorem canvas_le {R : Type} [Zero R] [LT R] [Finiteness R] (v : Viewport R) :
    v.width.toUInt32.toNat * v.height.toUInt32.toNat ≤ v.size :=
  Nat.mul_le_mul (Nat.mod_le ..) (Nat.mod_le ..)

theorem paint_congr (w w' : Workers) {shade shade' : Nat → Color K} (target : Picture)
    (h : ∀ offset < v.size, shade offset = shade' offset) :
    v.paint w shade target = v.paint w' shade' target := by
  have colors := @Workers.map_congr _ v.size (fun offset => (shade offset).toBytes)
    (fun offset => (shade' offset).toBytes) w w' fun offset ho => by rw [h offset ho]
  rw [paint, paint, colors]

theorem size_colors (w : Workers) (shade : Nat → Color K) :
    v.width.toUInt32.toNat * v.height.toUInt32.toNat ≤
      (w.map v.size fun offset => (shade offset).toBytes).size := by
  rw [Workers.size_map]
  exact v.canvas_le

theorem paint_target (w : Workers) (shade : Nat → Color K) (target target' : Picture) :
    v.paint w shade target = v.paint w shade target' := by
  have enough := v.size_colors w shade
  rw [paint, paint, canvas, canvas, Picture.paint_fit _ _ _ _ enough, Picture.paint_fit _ _ _ _ enough]

@[simp] theorem width_paint (w : Workers) (shade : Nat → Color K) (target : Picture) :
    (v.paint w shade target).width = v.width.toUInt32.toNat :=
  Picture.width_fit ..

@[simp] theorem height_paint (w : Workers) (shade : Nat → Color K) (target : Picture) :
    (v.paint w shade target).height = v.height.toUInt32.toNat :=
  Picture.height_fit ..

/-- One color for all pixels is a painting, too. -/
theorem flood_eq_paint (w : Workers) (c : Color K) (target : Picture) :
    v.flood c target = v.paint w (fun _ => c) target := by
  have enough := v.size_colors w fun _ => c
  have sides : (v.canvas target).pixels.size = v.width.toUInt32.toNat * v.height.toUInt32.toNat := by
    rw [Picture.size_eq, canvas, Picture.width_fit, Picture.height_fit]
  have pixels : ((v.canvas target).pixels.map fun _ => c.toBytes) =
      (v.canvas target).pixels.mapIdx fun i old => (w.map v.size fun _ => c.toBytes).getD i old := by
    apply Array.ext
    · simp
    · intro i hi _
      rw [Array.size_map, sides] at hi
      have colored : (w.map v.size fun _ => c.toBytes)[i]? = some c.toBytes :=
        w.getElem?_map (Nat.lt_of_lt_of_le hi v.canvas_le)
      rw [Array.getElem_map, Array.getElem_mapIdx, Array.getD_eq_getD_getElem?, colored, Option.getD_some]
  simp only [flood, paint, Picture.flood, Picture.paint, pixels]

/-- The color of a pixel is the one of its offset, if the sides have room in words of thirty-two bits. -/
theorem get?_paint (w : Workers) (shade : Nat → Color K) (target : Picture)
    (width_lt : v.width < UInt32.size) (height_lt : v.height < UInt32.size) {x y : Nat}
    (hx : x < v.width) (hy : y < v.height) :
    (v.paint w shade target).get? x y = some (shade (y * v.width + x)).toBytes := by
  have width : v.width.toUInt32.toNat = v.width := UInt32.toNat_ofNat_of_lt' width_lt
  have height : v.height.toUInt32.toNat = v.height := UInt32.toNat_ofNat_of_lt' height_lt
  have inside : y * v.width + x < v.size := v.offset_lt hx hy
  rw [Picture.get?, width_paint, width, if_pos hx]
  simp only [paint, canvas, Picture.paint_fit _ _ _ _ (v.size_colors w shade)]
  rw [width, height, Array.getElem?_extract, if_pos (by simpa [size] using inside), Nat.zero_add,
    w.getElem?_map inside]

end Viewport

end Argand
