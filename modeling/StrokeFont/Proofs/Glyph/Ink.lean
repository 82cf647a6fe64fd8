import StrokeFont.Glyph.Render

namespace StrokeFont

namespace Scale

def fits (fontSize units : Int) : Bool := (length fontSize units).isOk

def pixels (fontSize units : Int) : Int :=
  match length fontSize units with
  | .ok n => n
  | .error _ => 0

theorem length_of_fits {fontSize units : Int} (h : fits fontSize units = true) :
    length fontSize units = .ok (pixels fontSize units) := by
  unfold fits at h
  unfold pixels
  cases hlength : length fontSize units with
  | ok n => rfl
  | error e => rw [hlength] at h; cases h

theorem fits_of_length {fontSize units n : Int} (h : length fontSize units = .ok n) :
    fits fontSize units = true := by
  rw [fits, h]
  rfl

theorem pixels_of_length {fontSize units n : Int} (h : length fontSize units = .ok n) :
    pixels fontSize units = n := by
  rw [pixels, h]

def pointFits (fontSize : Int) (p : Point) : Bool :=
  fits fontSize p.x && fits fontSize (p.y - baseline)

def place (fontSize : Int) (origin p : Point) : Point :=
  ⟨origin.x + pixels fontSize p.x, origin.y - pixels fontSize (p.y - baseline)⟩

theorem toDevice_of_fits {fontSize : Int} {p : Point} (h : pointFits fontSize p = true)
    (origin : Point) : toDevice fontSize origin p = .ok (place fontSize origin p) := by
  rw [pointFits, Bool.and_eq_true] at h
  unfold toDevice height
  rw [length_of_fits h.1, length_of_fits h.2]
  rfl

end Scale

namespace Noted

variable {ε α β : Type}

theorem bind_of_ok {x : Noted ε α} {a : α} (h : x.result = .ok a) (f : α → Noted ε β) :
    (x >>= f) = ⟨x.notes ++ (f a).notes, (f a).result⟩ := by
  obtain ⟨notes, result⟩ := x
  obtain rfl : result = .ok a := h
  rfl

end Noted

namespace Drawing

variable {α β : Type}

theorem bind_of_ok {x : Drawing α} {a : α} (h : x.result = .ok a) (f : α → Drawing β) :
    (x >>= f) = ⟨x.pixels ++ (f a).pixels, x.notes ++ (f a).notes, (f a).result⟩ := by
  obtain ⟨pixels, notes, result⟩ := x
  obtain rfl : result = .ok a := h
  rfl

theorem ok_of_bind {x : Drawing α} {f : α → Drawing β} {b : β} (h : (x >>= f).result = .ok b) :
    ∃ a, x.result = .ok a ∧ (f a).result = .ok b := by
  obtain ⟨pixels, notes, result⟩ := x
  cases result with
  | error e => cases h
  | ok a => exact ⟨a, rfl, h⟩

theorem forM_append {f : α → Drawing Unit} {s t : List α}
    (h : ((s ++ t).forM f).result = .ok ()) :
    (s.forM f).result = .ok () ∧ (t.forM f).result = .ok () ∧
      ((s ++ t).forM f).pixels = (s.forM f).pixels ++ (t.forM f).pixels := by
  have happend : (s ++ t).forM f = s.forM f >>= fun _ => t.forM f := List.forM_append
  rw [happend] at h ⊢
  obtain ⟨_, hs, ht⟩ := ok_of_bind h
  rw [bind_of_ok hs]
  exact ⟨hs, ht, rfl⟩

end Drawing

namespace Glyph

theorem trace?_result {ε : Type} (program : String) :
    (trace? program : Noted ε _).result = .ok (trace program).result.toOption := by
  unfold trace?
  split
  · rename_i h
    simp only [h, Except.toOption]
  · rename_i h
    simp only [h, Except.toOption]

namespace Primitive

def fits (fontSize : Int) : Primitive → Bool
  | line start finish => Scale.pointFits fontSize start && Scale.pointFits fontSize finish
  | dot center => Scale.pointFits fontSize center

def ink (settings : Settings) (origin : Point) : Primitive → List Point
  | line start finish =>
      Raster.line settings.strokeWidth (Scale.place settings.fontSize origin start)
        (Scale.place settings.fontSize origin finish)
  | dot center => Raster.dot (Scale.place settings.fontSize origin center) settings.dotRadius

theorem paint_of_fits {settings : Settings} {p : Primitive} (h : p.fits settings.fontSize = true)
    (origin : Point) : p.paint settings origin = ⟨p.ink settings origin, [], .ok ()⟩ := by
  cases p with
  | line start finish =>
      rw [fits, Bool.and_eq_true] at h
      rw [paint, Scale.toDevice_of_fits h.1, Scale.toDevice_of_fits h.2]
      rfl
  | dot center =>
      rw [paint, Scale.toDevice_of_fits h]
      rfl

end Primitive

namespace Trace

def fits (fontSize : Int) (t : Trace) : Bool :=
  t.primitives.all (·.fits fontSize) && Scale.fits fontSize t.advance

def ink (settings : Settings) (origin : Point) (t : Trace) : List Point :=
  t.primitives.flatMap (·.ink settings origin)

theorem paint_primitives {settings : Settings} (origin : Point) {primitives : List Primitive}
    (h : ∀ p ∈ primitives, p.fits settings.fontSize = true) :
    primitives.forM (Primitive.paint settings origin) =
      ⟨primitives.flatMap (·.ink settings origin), [], .ok ()⟩ := by
  induction primitives with
  | nil => rfl
  | cons p primitives ih =>
      have hrest := ih fun q hq => h q (List.mem_cons_of_mem _ hq)
      change (p.paint settings origin >>= fun _ => primitives.forM (Primitive.paint settings origin)) = _
      rw [Primitive.paint_of_fits (h p List.mem_cons_self), Drawing.bind_ok, hrest]
      rfl

theorem paint_of_fits {settings : Settings} {t : Trace} (h : t.fits settings.fontSize = true)
    (origin : Point) : t.paint settings origin =
      ⟨t.ink settings origin, [], .ok (Scale.pixels settings.fontSize t.advance)⟩ := by
  rw [fits, Bool.and_eq_true, List.all_eq_true] at h
  unfold paint
  rw [paint_primitives origin h.1, Drawing.bind_ok, Scale.length_of_fits h.2]
  simp only [ink, List.nil_append]
  exact congrArg (Drawing.mk · [] _) (List.append_nil _)

end Trace

theorem render_of_trace {program : String} {t : Trace} (ht : (trace program).result = .ok t)
    (settings : Settings) (origin : Point) :
    (render settings origin program).pixels = (t.paint settings origin).pixels ∧
      (render settings origin program).result = (t.paint settings origin).result := by
  have htrace : (liftM (trace? program : Noted Binary.ConversionError _) : Drawing _).result =
      .ok (some t) := by
    refine (trace?_result program).trans ?_
    rw [ht]
    rfl
  rw [render, Drawing.bind_of_ok htrace]
  exact ⟨List.nil_append _, rfl⟩

theorem render_of_malformed {program : String} {cause : Malformed}
    (hcause : (trace program).result = .error cause) (settings : Settings) (origin : Point) :
    (render settings origin program).pixels = [] ∧ (render settings origin program).result = .ok 0 := by
  have htrace : (liftM (trace? program : Noted Binary.ConversionError _) : Drawing _).result =
      .ok none := by
    refine (trace?_result program).trans ?_
    rw [hcause]
    rfl
  rw [render, Drawing.bind_of_ok htrace]
  exact ⟨rfl, rfl⟩

end Glyph

end StrokeFont
