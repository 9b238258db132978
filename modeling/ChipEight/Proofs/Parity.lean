import ChipEight.Proofs.Hits

namespace ChipEight

/-!
# Sprites over one another

A sprite flips the pixels that it hits.  Of many sprites it only matters for a pixel whether an
odd number of them hit it, so their order makes no difference and twice as many undo each other.

* `Request` — a word that draws, with what its registers are to hold;
* `Request.Hits`, `Request.countHits` — the pixels that a request hits, and how many requests
  hit a pixel, told by the memory alone;
* `Machine.Draws` — some requests are drawn one after another, with anything in between that
  leaves the memory and the picture alone;
* `Machine.drawAll`, `Loose.drawAll` — nothing but that, on the machine and on the loose one;
* `Machine.pixel_of_draws` — a pixel is flipped if an odd number of the requests hit it;
* `Machine.Redraws` — the same sprite is drawn a second time, with what that leaves in the flag
  register.
-/

/-- A request to draw a sprite: a word that draws, and what the registers of its position and
    the index register are to hold for it. -/
structure Request where
  word : Word
  left : Byte
  top : Byte
  address : Word
  draws : word.family = 0xD
  /-- One register cannot hold two values. -/
  agrees : word.x = word.y → left = top

namespace Request

/-- The sprite of a request has a set bit over a pixel of the screen. -/
def Hits (r : Request) (memory : Memory) (cx : Fin 64) (cy : Fin 32) : Prop :=
  let left := r.left.toNat % 64
  let top := r.top.toNat % 32
  left ≤ cx.val ∧ cx.val < left + 8 ∧ top ≤ cy.val ∧ cy.val < top + r.word.n.toNat
    ∧ memory.bytes[(r.address.toNat + (cy.val - top)) % 4096].getLsbD (7 - (cx.val - left)) = true

instance (r : Request) (memory : Memory) (cx : Fin 64) (cy : Fin 32) :
    Decidable (r.Hits memory cx cy) :=
  inferInstanceAs (Decidable (_ ∧ _ ∧ _ ∧ _ ∧ _))

/-- How many of some requests hit a pixel. -/
def countHits (requests : List Request) (memory : Memory) (cx : Fin 64) (cy : Fin 32) : Nat :=
  requests.countP fun r => decide (r.Hits memory cx cy)

end Request

namespace Machine

variable {ρ : Type}

/-! ### One request -/

/-- The registers hold what a request asks for. -/
structure IsSetFor (m : Machine ρ) (r : Request) : Prop where
  left : m.reg r.word.x = r.left
  top : m.reg r.word.y = r.top
  address : m.index = r.address

/-- Two machines with the same memory and the same picture. -/
structure SameScene (m n : Machine ρ) : Prop where
  memory : n.memory = m.memory
  picture : n.picture = m.picture

/-- The machine with its registers set for a request. -/
def setFor (m : Machine ρ) (r : Request) : Machine ρ :=
  { (m.setReg r.word.x r.left).setReg r.word.y r.top with index := r.address }

/-- The registers then hold what the request asks for, also if it names one register twice. -/
theorem isSetFor_setFor (m : Machine ρ) (r : Request) : (m.setFor r).IsSetFor r where
  left := by
    show ((m.setReg r.word.x r.left).setReg r.word.y r.top).reg r.word.x = r.left
    rw [reg_setReg, reg_setReg, if_pos rfl]
    split
    · next same => exact (r.agrees same).symm
    · rfl
  top := by
    show ((m.setReg r.word.x r.left).setReg r.word.y r.top).reg r.word.y = r.top
    rw [reg_setReg, if_pos rfl]
  address := rfl

/-- On a machine that is set for a request the sprite hits what the request hits. -/
theorem hits_of_isSetFor {m : Machine ρ} {r : Request} (set : m.IsSetFor r) (cx : Fin 64)
    (cy : Fin 32) : m.Hits r.word.x r.word.y r.word.n cx cy ↔ r.Hits m.memory cx cy := by
  simp only [Hits, Request.Hits, set.left, set.top, set.address]

variable [RandomSource ρ]

/-- A request names the instruction that draws. -/
theorem decode?_request (r : Request) :
    Instruction.decode? r.word = some (.draw r.word.x r.word.y r.word.n) :=
  Instruction.decode?_of_names ⟨r.draws, rfl, rfl, rfl⟩

/-- Executing its word draws its sprite. -/
theorem execute_request (m : Machine ρ) (r : Request) :
    (m.execute r.word).machine
      = (m.noting r.word).drawSprite r.word.x r.word.y r.word.n := by
  rw [execute_of_decode (decode?_request r)]
  simp only [perform]

/-- The memory stays. -/
theorem memory_execute_request (m : Machine ρ) (r : Request) :
    (m.execute r.word).machine.memory = m.memory := by
  rw [execute_request]
  rfl

/-- **One request** flips the pixels that it hits. -/
theorem pixel_execute_request {m : Machine ρ} {r : Request} (set : m.IsSetFor r) (cx : Fin 64)
    (cy : Fin 32) :
    (m.execute r.word).machine.picture.pixel cx cy
      = (m.picture.pixel cx cy ^^ decide (r.Hits m.memory cx cy)) := by
  have hits : (m.noting r.word).Hits r.word.x r.word.y r.word.n cx cy ↔ r.Hits m.memory cx cy :=
    hits_of_isSetFor set cx cy
  have picture : (m.noting r.word).picture = m.picture := rfl
  rw [execute_request, pixel_drawSprite, picture]
  by_cases hit : r.Hits m.memory cx cy
  · simp [hits, hit]
  · simp [hits, hit]

/-- The flag is set exactly if a pixel that was hit had been on. -/
theorem flag_execute_request_iff {m : Machine ρ} {r : Request} (set : m.IsSetFor r) :
    (m.execute r.word).machine.reg flagRegister = 1
      ↔ ∃ cx cy, r.Hits m.memory cx cy ∧ m.picture.pixel cx cy = true := by
  have hits (cx : Fin 64) (cy : Fin 32) :
      (m.noting r.word).Hits r.word.x r.word.y r.word.n cx cy ↔ r.Hits m.memory cx cy :=
    hits_of_isSetFor set cx cy
  obtain ⟨on, off⟩ := flag_drawSprite (m.noting r.word) r.word.x r.word.y r.word.n
  simp only [hits] at on off
  rw [execute_request]
  refine ⟨fun flag => ?_, on⟩
  by_contra none
  rw [off none] at flag
  exact absurd flag (by decide)

/-! ### Some requests, one after another -/

/-- Some requests are drawn one after another.  Before each of them, and at the end, anything
    may happen that leaves the memory and the picture alone; then the registers hold what the
    request asks for, and its word is executed. -/
inductive Draws : List Request → Machine ρ → Machine ρ → Prop
  | nil {m n : Machine ρ} (scene : m.SameScene n) : Draws [] m n
  | cons {m k n : Machine ρ} {r : Request} {requests : List Request} (scene : m.SameScene k)
      (set : k.IsSetFor r) (rest : Draws requests (k.execute r.word).machine n) :
      Draws (r :: requests) m n

/-- The requests are drawn and nothing else is done. -/
def drawAll (m : Machine ρ) (requests : List Request) : Machine ρ :=
  requests.foldl (fun m r => ((m.setFor r).execute r.word).machine) m

/-- That is one way to draw them, on any machine. -/
theorem draws_drawAll (m : Machine ρ) (requests : List Request) :
    Draws requests m (m.drawAll requests) := by
  induction requests generalizing m with
  | nil => exact .nil ⟨rfl, rfl⟩
  | cons r requests ih => exact .cons (k := m.setFor r) ⟨rfl, rfl⟩ (isSetFor_setFor m r) (ih _)

/-- One request more is one hit more where it hits. -/
theorem countHits_cons (r : Request) (requests : List Request) (memory : Memory) (cx : Fin 64)
    (cy : Fin 32) :
    Request.countHits (r :: requests) memory cx cy
      = Request.countHits requests memory cx cy + if r.Hits memory cx cy then 1 else 0 := by
  simp only [Request.countHits, List.countP_cons, decide_eq_true_eq]

/-- **A pixel is flipped if an odd number of requests hit it.** -/
theorem pixel_of_draws {m n : Machine ρ} {requests : List Request} (drawn : Draws requests m n)
    (cx : Fin 64) (cy : Fin 32) :
    n.picture.pixel cx cy
      = (m.picture.pixel cx cy ^^ decide (Odd (Request.countHits requests m.memory cx cy))) := by
  induction drawn with
  | nil scene => simp [Request.countHits, scene.picture]
  | @cons m k n r requests scene set rest ih =>
    rw [ih, pixel_execute_request set, memory_execute_request, scene.memory, scene.picture,
      countHits_cons]
    -- One more hit changes whether their number is odd.
    by_cases hit : r.Hits m.memory cx cy
    · simp only [hit, decide_true, if_true, Nat.odd_add_one, decide_not, Bool.xor_true,
        Bool.xor_not, Bool.not_xor]
    · simp only [hit, decide_false, if_false, Nat.add_zero, Bool.xor_false]

/-- Requests in another order leave the same picture. -/
theorem picture_of_perm {m n n' : Machine ρ} {first second : List Request}
    (perm : first.Perm second) (drawn : Draws first m n) (drawn' : Draws second m n') :
    n.picture = n'.picture := by
  ext cx cy
  have count : Request.countHits first m.memory cx cy = Request.countHits second m.memory cx cy :=
    perm.countP_eq _
  rw [pixel_of_draws drawn, pixel_of_draws drawn', count]

/-- All requests twice leave the picture as it was. -/
theorem picture_of_draws_twice {m n : Machine ρ} {requests : List Request}
    (drawn : Draws (requests ++ requests) m n) : n.picture = m.picture := by
  ext cx cy
  have even : ¬ Odd (Request.countHits (requests ++ requests) m.memory cx cy) := by
    rw [Nat.not_odd_iff_even, Request.countHits, List.countP_append]
    exact Even.add_self _
  rw [pixel_of_draws drawn, decide_eq_false even, Bool.xor_false]

/-! ### The same request twice -/

/-- A machine on which the same sprite can be drawn again: nothing has happened to the picture
    that drawing it left, and the registers hold what the request asks for. -/
structure Redraws (m k : Machine ρ) (r : Request) : Prop where
  first : m.IsSetFor r
  scene : (m.execute r.word).machine.SameScene k
  second : k.IsSetFor r

/-- A request whose position is not in the flag register leaves the registers set for itself. -/
theorem isSetFor_execute_request {m : Machine ρ} {r : Request} (set : m.IsSetFor r)
    (notX : r.word.x ≠ flagRegister) (notY : r.word.y ≠ flagRegister) :
    (m.execute r.word).machine.IsSetFor r := by
  have kept {i : Nibble} (other : i ≠ flagRegister) :
      (m.execute r.word).machine.reg i = m.reg i := by
    rw [execute_request]
    refine (reg_setReg _ flagRegister i _).trans ?_
    rw [if_neg other]
    rfl
  refine ⟨(kept notX).trans set.left, (kept notY).trans set.top, ?_⟩
  rw [execute_request]
  exact set.address

namespace Redraws

variable {m k : Machine ρ} {r : Request}

/-- The second drawing undoes the first. -/
theorem picture (again : Redraws m k r) : (k.execute r.word).machine.picture = m.picture := by
  ext cx cy
  have memory : k.memory = m.memory := by rw [again.scene.memory, memory_execute_request]
  rw [pixel_execute_request again.second, again.scene.picture, memory,
    pixel_execute_request again.first, Bool.xor_assoc, Bool.xor_self, Bool.xor_false]

/-- It sets the flag exactly if the sprite hits a pixel that was off before the first one,
    which then turned it on. -/
theorem flag_iff (again : Redraws m k r) :
    (k.execute r.word).machine.reg flagRegister = 1
      ↔ ∃ cx cy, r.Hits m.memory cx cy ∧ m.picture.pixel cx cy = false := by
  have memory : k.memory = m.memory := by rw [again.scene.memory, memory_execute_request]
  rw [flag_execute_request_iff again.second, memory]
  refine exists_congr fun cx => exists_congr fun cy => and_congr_right fun hit => ?_
  rw [again.scene.picture, pixel_execute_request again.first, decide_eq_true hit, Bool.xor_true,
    Bool.not_eq_true']

/-- If the first drawing turned nothing off, any pixel that the sprite hits sets the flag. -/
theorem flag_iff_of_first (again : Redraws m k r)
    (none : (m.execute r.word).machine.reg flagRegister ≠ 1) :
    (k.execute r.word).machine.reg flagRegister = 1 ↔ ∃ cx cy, r.Hits m.memory cx cy := by
  rw [again.flag_iff]
  refine exists_congr fun cx => exists_congr fun cy => and_iff_left_of_imp fun hit => ?_
  rw [Bool.eq_false_iff]
  intro on
  exact none ((flag_execute_request_iff again.first).mpr ⟨cx, cy, hit, on⟩)

end Redraws

end Machine

/-! ### The loose machine -/

namespace Loose

variable {ρ : Type} [RandomSource ρ]

/-- Set the registers for a request and execute its word, which goes through the lines and
    columns of the sprite. -/
def drawOne (r : Request) : Step ρ Unit := do
  setRegister r.word.x.toNat r.left.toNat
  setRegister r.word.y.toNat r.top.toNat
  setIndex r.address.toNat
  let _ ← execute r.word.toNat

/-- Do so for some requests, one after another. -/
def drawAll (requests : List Request) : Step ρ Unit := requests.forM drawOne

/-- This draws the same picture. -/
theorem Runs.drawAll (m : Machine ρ) (requests : List Request) :
    Runs (drawAll requests) m () (m.drawAll requests) := by
  refine forM requests (fun r _ m => ?_) m
  have executed : Runs (Loose.execute r.word.toNat) (m.setFor r) _ _ :=
    Runs.execute (Machine.decode?_request r)
  exact bind (setRegister r.word.x r.left) (bind (setRegister r.word.y r.top)
    (bind (setIndex rfl) (bind executed (pure ()))))

end Loose

/-! ### All of it -/

namespace Machine

variable {ρ : Type} [RandomSource ρ]

/-- **Sprites add up modulo two.**  Any requests can be drawn on any machine one after another,
    on the loose machine too, which flips their pixels in turn.  A pixel is then the other way
    round exactly if an odd number of the requests hit it, so requests in another order leave the
    same picture, and all of them twice leave it as it was.  Drawing one sprite a second time
    undoes the first time, and needs no registers to be set again unless the position is in the
    flag register.  The second time sets the flag exactly if the sprite has a set bit over a pixel
    of the screen that was off at first: over any pixel of the screen, if the first time turned
    nothing off. -/
theorem sprites_add_up (m : Machine ρ) :
    (∀ requests, Draws requests m (m.drawAll requests)
        ∧ Loose.drawAll requests m.loose = .ok () (m.drawAll requests).loose)
      ∧ (∀ requests n, Draws requests m n → ∀ cx cy, n.picture.pixel cx cy
        = if Odd (Request.countHits requests m.memory cx cy) then !m.picture.pixel cx cy
          else m.picture.pixel cx cy)
      ∧ (∀ first second n n', first.Perm second → Draws first m n → Draws second m n' →
        n.picture = n'.picture)
      ∧ (∀ requests n, Draws (requests ++ requests) m n → n.picture = m.picture)
      ∧ ∀ r : Request, m.IsSetFor r →
        let once := (m.execute r.word).machine
        (r.word.x ≠ flagRegister → r.word.y ≠ flagRegister → once.IsSetFor r)
          ∧ ∀ k : Machine ρ, once.SameScene k → k.IsSetFor r →
            let twice := (k.execute r.word).machine
            twice.picture = m.picture
              ∧ (twice.reg flagRegister = 1
                ↔ ∃ cx cy, r.Hits m.memory cx cy ∧ m.picture.pixel cx cy = false)
              ∧ (once.reg flagRegister ≠ 1 →
                (twice.reg flagRegister = 1 ↔ ∃ cx cy, r.Hits m.memory cx cy)) := by
  refine ⟨fun requests => ⟨draws_drawAll m requests, Loose.Runs.drawAll m requests⟩, ?_,
    fun _ _ _ _ => picture_of_perm, fun _ _ => picture_of_draws_twice, ?_⟩
  · intro requests n drawn cx cy
    rw [pixel_of_draws drawn]
    split
    · next odd => rw [decide_eq_true odd, Bool.xor_true]
    · next even => rw [decide_eq_false even, Bool.xor_false]
  · intro r set once
    refine ⟨isSetFor_execute_request set, ?_⟩
    intro k scene again twice
    have redraws : Redraws m k r := ⟨set, scene, again⟩
    exact ⟨redraws.picture, redraws.flag_iff, redraws.flag_iff_of_first⟩

/-- The theorem at the digits `0` and `1` over one another in the last corner, the second one
    with its column in the flag register: they may as well be drawn the other way round. -/
theorem digits_may_change_places :
    let m := new false (Wheel.ofList [])
    let zero : Request := ⟨0xD015, 60, 29, 0x50, by decide, by decide⟩
    let one : Request := ⟨0xDF15, 61, 30, 0x55, by decide, by decide⟩
    (m.drawAll [zero, one]).picture = (m.drawAll [one, zero]).picture := by
  intro m zero one
  obtain ⟨drawn, -, perm, -, -⟩ := sprites_add_up m
  exact perm [zero, one] [one, zero] _ _ (.swap one zero []) (drawn _).1 (drawn _).1

/-- The second time a sprite is drawn may leave the flag alone, although its bits are over pixels
    of the screen: here the sprite was on the screen before, so that drawing it turned its pixels
    off and drawing it again only turned them on. -/
theorem second_time_may_turn_nothing_off :
    let r : Request := ⟨0xD001, 0, 0, 0x50, by decide, by decide⟩
    let m := ((new false (Wheel.ofList [])).setFor r).execute r.word |>.machine
    let once := (m.execute r.word).machine
    let twice := (once.execute r.word).machine
    r.Hits m.memory 0 0 ∧ m.IsSetFor r
      ∧ ¬ (twice.reg flagRegister = 1 ↔ ∃ cx cy, r.Hits m.memory cx cy) := by
  intro r m once twice
  have line : Memory.initial.bytes[0x50] = 0xF0 := by
    simp [Memory.getElem_initial, Font.start, Font.bytes]
  let blank : Machine Wheel := (new false (Wheel.ofList [])).setFor r
  have first : blank.IsSetFor r := isSetFor_setFor _ r
  have set : m.IsSetFor r := isSetFor_execute_request first (by decide) (by decide)
  have again : Redraws m once r :=
    ⟨set, ⟨rfl, rfl⟩, isSetFor_execute_request set (by decide) (by decide)⟩
  have memory : m.memory = Memory.initial := memory_execute_request blank r
  -- The picture is the sprite, so the sprite hits no pixel that is off.
  have lit (cx : Fin 64) (cy : Fin 32) :
      m.picture.pixel cx cy = decide (r.Hits m.memory cx cy) := by
    have drawn := pixel_execute_request first cx cy
    have off : blank.picture.pixel cx cy = false := Picture.pixel_blank cx cy
    rw [off, Bool.false_xor] at drawn
    rw [memory]
    exact drawn
  have hits : r.Hits m.memory 0 0 := by
    refine ⟨by decide, by decide, by decide, by decide, ?_⟩
    rw [memory]
    show Memory.initial.bytes[0x50].getLsbD 7 = true
    rw [line]
    decide
  refine ⟨hits, set, fun claim => ?_⟩
  obtain ⟨cx, cy, hit, off⟩ := again.flag_iff.mp (claim.mpr ⟨0, 0, hits⟩)
  rw [lit, decide_eq_true hit] at off
  exact absurd off (by decide)

end Machine

end ChipEight
