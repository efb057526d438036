/-
  Lines between the firmware and the Android application.

  The firmware prints texts that end with a carriage return and more
  (`common/myprintk.c`).  Bluetooth cuts them into chunks, and the activity
  (`activity_comunicacion.java`) collects the chunks: when there is a carriage
  return, and not at the start, it shows what stands before it and forgets
  everything, also what stands after it.

  So a chunk that goes on after the end of a line loses what follows, and a chunk
  that starts with a carriage return blocks the activity for good.  The lines are
  shown as they were sent exactly if each of them ends with a chunk
  (`framing_iff`).
-/
import Bluepill.Lib.Chunks
import Mathlib.Data.Int.Notation
import Mathlib.Tactic.Common

namespace Bluepill.Comunicacion

def CR : Char := '\r'
def LF : Char := '\n'

/-! ## The firmware -/

/-- `myputc`, as the characters that are sent. -/
def myputc (c : Char) : List Char := if c = LF then [CR, c] else [c]

/-- `myputs`. -/
def myputs (s : List Char) : List Char := s.flatMap myputc

/-- A line: a text, a carriage return and the rest of the line's end. -/
structure TextLine where
  text : List Char
  tail : List Char
  text_ne : text ≠ []
  text_cr : CR ∉ text
  tail_end : ∀ c ∈ tail, c = CR ∨ c = LF

/-- What is sent for the lines. -/
def stream (lines : List TextLine) : List Char := lines.flatMap fun l => l.text ++ CR :: l.tail

/-- A text that begins with a line feed can only be that of the first line: after another line, the line feed would
    belong to the end of that one. -/
def Parted (lines : List TextLine) : Prop := ∀ l ∈ lines.tail, l.text.head? ≠ some LF

/-! ## The activity -/

/-- The images of the button. -/
inductive Drawable where
  | button_push | button_free
  deriving DecidableEq

/-- `activity_comunicacion`; of the text view, all the texts it has shown. -/
structure Activity where
  recDataString : List Char
  txtPotenciometro : List (List Char)
  imageView : Drawable
  deriving DecidableEq

/-- A message of the second thread. -/
structure Message where
  what : ℕ
  obj : List Char

namespace Activity

def handlerState : ℕ := 0

/-- `onCreate`. -/
def onCreate : Activity := ⟨[], [], .button_free⟩

/-- `StringBuilder.indexOf`, for one character. -/
def indexOf (l : List Char) (c : Char) : ℤ :=
  match l.idxOf? c with
  | some i => i
  | none => -1

/-- `handleMessage`. -/
def handleMessage (s : Activity) (msg : Message) : Activity :=
  if msg.what = handlerState then
    let recDataString := s.recDataString ++ msg.obj
    let endOfLineIndex := indexOf recDataString CR
    if endOfLineIndex > 0 then
      let dataInPrint := recDataString.take endOfLineIndex.toNat
      { recDataString := []
        txtPotenciometro := s.txtPotenciometro ++ [dataInPrint]
        imageView :=
          if dataInPrint = "Boton Presionado".toList then .button_push else .button_free }
    else { s with recDataString }
  else s

/-- The chunks that `ConnectedThread.run` has read, as the messages it sends. -/
def deliver (s : Activity) (chunks : List (List Char)) : Activity :=
  chunks.foldl (fun s chunk => s.handleMessage ⟨handlerState, chunk⟩) s

/-- Whatever comes, nothing is shown any more. -/
def Stuck (s : Activity) : Prop :=
  ∀ chunks, (s.deliver chunks).txtPotenciometro = s.txtPotenciometro

variable {s : Activity} {chunk a b : List Char} {chunks pre post : List (List Char)}

/-! ## A message -/

theorem indexOf_none {l : List Char} (h : CR ∉ l) : indexOf l CR = -1 := by
  rw [indexOf, List.idxOf?_eq_none_iff.2 h]

theorem indexOf_first (h : CR ∉ a) : indexOf (a ++ CR :: b) CR = a.length := by
  have hidx : (a ++ CR :: b).idxOf? CR = some a.length := by
    induction a with
    | nil => simp [List.idxOf?_cons]
    | cons c a ih =>
      have hc : (c == CR) = false := by
        simp only [beq_eq_false_iff_ne]
        exact fun hc => h (by simp [hc])
      have ha : CR ∉ a := fun ha => h (by simp [ha])
      rw [List.cons_append, List.idxOf?_cons, ih ha, hc]
      rfl
  rw [indexOf, hidx]

/-- Nothing is shown, and the chunk is kept. -/
theorem handle_keep (h : ¬ indexOf (s.recDataString ++ chunk) CR > 0) :
    s.handleMessage ⟨handlerState, chunk⟩ =
      { s with recDataString := s.recDataString ++ chunk } := by
  rw [handleMessage, if_pos rfl]
  exact if_neg h

/-- A text is shown, and nothing is kept. -/
theorem handle_line (h : s.recDataString ++ chunk = a ++ CR :: b) (ha : CR ∉ a) (hne : a ≠ []) :
    ∃ image, s.handleMessage ⟨handlerState, chunk⟩ =
      ⟨[], s.txtPotenciometro ++ [a], image⟩ := by
  have hpos : 0 < a.length := List.length_pos_iff.2 hne
  have hidx := indexOf_first (b := b) ha
  rw [handleMessage, if_pos rfl]
  dsimp only
  rw [h, hidx, if_pos (by omega), Int.toNat_natCast, List.take_left]
  exact ⟨_, rfl⟩

/-- What a message does: the three cases. -/
theorem handle_cases (s : Activity) (chunk : List Char) :
    (CR ∉ s.recDataString ++ chunk ∧ s.handleMessage ⟨handlerState, chunk⟩ =
      { s with recDataString := s.recDataString ++ chunk }) ∨
    ((s.recDataString ++ chunk).head? = some CR ∧ s.handleMessage ⟨handlerState, chunk⟩ =
      { s with recDataString := s.recDataString ++ chunk }) ∨
    ∃ a b image, s.recDataString ++ chunk = a ++ CR :: b ∧ CR ∉ a ∧ a ≠ [] ∧
      s.handleMessage ⟨handlerState, chunk⟩ = ⟨[], s.txtPotenciometro ++ [a], image⟩ := by
  by_cases hcr : CR ∈ s.recDataString ++ chunk
  · obtain ⟨a, b, hab, ha⟩ := List.eq_append_cons_of_mem hcr
    cases a with
    | nil =>
      refine .inr (.inl ⟨by rw [hab]; rfl, handle_keep ?_⟩)
      rw [hab, indexOf_first ha]
      decide
    | cons c a =>
      obtain ⟨image, himage⟩ := handle_line hab ha (List.cons_ne_nil c a)
      exact .inr (.inr ⟨c :: a, b, image, hab, ha, List.cons_ne_nil c a, himage⟩)
  · refine .inl ⟨hcr, handle_keep ?_⟩
    rw [indexOf_none hcr]
    decide

/-! ## Deliveries -/

@[simp] theorem deliver_nil (s : Activity) : s.deliver [] = s := rfl

theorem deliver_cons (s : Activity) (chunk : List Char) (chunks : List (List Char)) :
    s.deliver (chunk :: chunks) = (s.handleMessage ⟨handlerState, chunk⟩).deliver chunks := rfl

theorem deliver_append (s : Activity) (chunks post : List (List Char)) :
    s.deliver (chunks ++ post) = (s.deliver chunks).deliver post := List.foldl_append

/-- Chunks without a carriage return are kept. -/
theorem deliver_open : ∀ {s : Activity}, CR ∉ s.recDataString ++ chunks.flatten →
    s.deliver chunks = { s with recDataString := s.recDataString ++ chunks.flatten } := by
  induction chunks with
  | nil =>
    intro s _
    simp
  | cons c chunks ih =>
    intro s h
    rw [List.flatten_cons, ← List.append_assoc] at h
    have hc : CR ∉ s.recDataString ++ c := fun hc => h (List.mem_append_left _ hc)
    have hkeep : s.handleMessage ⟨handlerState, c⟩ =
        { s with recDataString := s.recDataString ++ c } :=
      handle_keep (by rw [indexOf_none hc]; decide)
    rw [deliver_cons, hkeep, ih h]
    simp

/-- The first text, and the rest. -/
theorem deliver_line (h : s.recDataString ++ pre.flatten ++ chunk = a ++ CR :: b) (ha : CR ∉ a)
    (hpre : CR ∉ s.recDataString ++ pre.flatten) (hne : a ≠ []) :
    ∃ image, s.deliver (pre ++ chunk :: post) =
      deliver ⟨[], s.txtPotenciometro ++ [a], image⟩ post := by
  rw [deliver_append, deliver_open hpre, deliver_cons]
  obtain ⟨image, himage⟩ := handle_line
    (s := { s with recDataString := s.recDataString ++ pre.flatten }) h ha hne
  exact ⟨image, by rw [himage]⟩

/-- A carriage return at the start stays there. -/
theorem deliver_head : ∀ {s : Activity}, s.recDataString.head? = some CR →
    (s.deliver chunks).recDataString.head? = some CR ∧
      (s.deliver chunks).txtPotenciometro = s.txtPotenciometro := by
  induction chunks with
  | nil =>
    intro s h
    exact ⟨h, rfl⟩
  | cons c chunks ih =>
    intro s h
    obtain ⟨l, hl⟩ : ∃ l, s.recDataString = CR :: l := List.head?_eq_some_iff.1 h
    have hkeep : s.handleMessage ⟨handlerState, c⟩ =
        { s with recDataString := s.recDataString ++ c } := by
      refine handle_keep ?_
      rw [hl, List.cons_append, ← List.nil_append (CR :: _), indexOf_first (by simp)]
      decide
    rw [deliver_cons, hkeep]
    exact ih (by rw [hl]; rfl)

/-- **The activity is stuck exactly if it keeps a carriage return at the start.** -/
theorem stuck_iff : s.Stuck ↔ s.recDataString.head? = some CR := by
  constructor
  · intro h
    by_contra hhead
    have hne : ∃ image, s.handleMessage ⟨handlerState, ['x', CR]⟩ = image ∧
        image.txtPotenciometro ≠ s.txtPotenciometro := by
      refine ⟨_, rfl, ?_⟩
      rcases handle_cases s ['x', CR] with ⟨hcr, -⟩ | ⟨hcr, -⟩ | ⟨a, b, image, -, -, -, himage⟩
      · exact absurd (by simp) hcr
      · refine absurd ?_ hhead
        cases hrec : s.recDataString with
        | nil =>
          rw [hrec] at hcr
          exact absurd hcr (by decide)
        | cons c l =>
          rw [hrec] at hcr
          exact hcr
      · rw [himage]
        simp
    obtain ⟨t, rfl, ht⟩ := hne
    exact ht (h [['x', CR]])
  · intro h chunks
    exact (deliver_head h).2

/-! ## Characters are not shown twice -/

/-- A character of a text, not of a line's end. -/
def isText (c : Char) : Bool := c != CR && c != LF

theorem handle_count (s : Activity) (chunk : List Char) : ∃ texts,
    (s.handleMessage ⟨handlerState, chunk⟩).txtPotenciometro = s.txtPotenciometro ++ texts ∧
      texts.flatten.countP isText +
          (s.handleMessage ⟨handlerState, chunk⟩).recDataString.countP isText ≤
        s.recDataString.countP isText + chunk.countP isText := by
  rcases handle_cases s chunk with ⟨-, h⟩ | ⟨-, h⟩ | ⟨a, b, image, hab, -, -, h⟩
  · exact ⟨[], by simp [h]⟩
  · exact ⟨[], by simp [h]⟩
  · refine ⟨[a], by rw [h], ?_⟩
    have hcount := congrArg (List.countP isText) hab
    simp only [h, List.countP_append, List.flatten_cons, List.flatten_nil, List.countP_cons,
      List.countP_nil] at hcount ⊢
    omega

/-- **What is shown was received**, and only once. -/
theorem deliver_count : ∀ {s : Activity}, ∃ texts,
    (s.deliver chunks).txtPotenciometro = s.txtPotenciometro ++ texts ∧
      texts.flatten.countP isText ≤
        s.recDataString.countP isText + chunks.flatten.countP isText := by
  induction chunks with
  | nil =>
    intro s
    exact ⟨[], by simp⟩
  | cons c chunks ih =>
    intro s
    obtain ⟨texts₁, htexts₁, hcount₁⟩ := handle_count s c
    obtain ⟨texts₂, htexts₂, hcount₂⟩ := @ih (s.handleMessage ⟨handlerState, c⟩)
    refine ⟨texts₁ ++ texts₂, ?_, ?_⟩
    · rw [deliver_cons, htexts₂, htexts₁, List.append_assoc]
    · rw [List.flatten_append, List.flatten_cons, List.countP_append, List.countP_append]
      omega

/-- The first text begins with the first character. -/
theorem deliver_first (hs : s.recDataString = []) (hcr : CR ∈ chunks.flatten)
    (hhead : chunks.flatten.head? ≠ some CR) : ∃ a texts,
      (s.deliver chunks).txtPotenciometro = s.txtPotenciometro ++ a :: texts ∧
        a.head? = chunks.flatten.head? := by
  obtain ⟨pre, x, y, post, rfl, hpre, hx⟩ := Chunks.exists_first hcr
  have hflat : (pre ++ (x ++ CR :: y) :: post).flatten =
      (pre.flatten ++ x) ++ CR :: (y ++ post.flatten) := by simp
  have hne : pre.flatten ++ x ≠ [] := by
    intro h
    rw [hflat, h] at hhead
    exact hhead rfl
  have htext : CR ∉ pre.flatten ++ x := by simp [hpre, hx]
  obtain ⟨image, himage⟩ : ∃ image, s.deliver (pre ++ (x ++ CR :: y) :: post) =
      deliver ⟨[], s.txtPotenciometro ++ [pre.flatten ++ x], image⟩ post :=
    deliver_line (b := y) (by simp [hs]) htext (by simpa [hs] using hpre) hne
  obtain ⟨texts, htexts, -⟩ :=
    @deliver_count post ⟨[], s.txtPotenciometro ++ [pre.flatten ++ x], image⟩
  refine ⟨pre.flatten ++ x, texts, ?_, ?_⟩
  · rw [himage, htexts]
    simp
  · rw [hflat, List.head?_append_of_ne_nil _ hne]

end Activity

/-! ## Lines and chunks -/

open Activity

/-- The chunks go with the lines: each line ends with a chunk, and begins with one.  Only line
    feeds of the last line may come later. -/
inductive Aligned : List TextLine → List (List Char) → Prop
  | nil : Aligned [] []
  | cons {l : TextLine} {lines : List TextLine} {pre chunks : List (List Char)} {x : List Char} :
      pre.flatten ++ x = l.text → Aligned lines chunks →
      Aligned (l :: lines) (pre ++ (x ++ CR :: l.tail) :: chunks)
  | last {l : TextLine} {pre chunks : List (List Char)} {x y : List Char} :
      pre.flatten ++ x = l.text → y ++ chunks.flatten = l.tail → (∀ c ∈ chunks.flatten, c = LF) →
      Aligned [l] (pre ++ (x ++ CR :: y) :: chunks)

variable {s : Activity} {lines : List TextLine} {chunks : List (List Char)}

/-- The line at the start of the chunks. -/
theorem deliver_text (hs : s.recDataString = []) (l : TextLine) {pre : List (List Char)}
    {x : List Char} (hl : pre.flatten ++ x = l.text) (y : List Char) (post : List (List Char)) :
    ∃ image, s.deliver (pre ++ (x ++ CR :: y) :: post) =
      Activity.deliver ⟨[], s.txtPotenciometro ++ [l.text], image⟩ post := by
  have hcr : CR ∉ pre.flatten ++ x := hl ▸ l.text_cr
  have hpre : CR ∉ pre.flatten := fun h => hcr (List.mem_append_left _ h)
  refine deliver_line (b := y) ?_ l.text_cr ?_ l.text_ne
  · simp [hs, ← hl]
  · simpa [hs] using hpre

theorem Aligned.shows (h : Aligned lines chunks) : ∀ {s : Activity}, s.recDataString = [] →
    (s.deliver chunks).txtPotenciometro = s.txtPotenciometro ++ lines.map TextLine.text ∧
      ¬ (s.deliver chunks).Stuck := by
  induction h with
  | nil =>
    intro s hs
    refine ⟨by simp, ?_⟩
    rw [stuck_iff, deliver_nil, hs]
    exact nofun
  | @cons l lines pre chunks x hl _ ih =>
    intro s hs
    obtain ⟨image, himage⟩ := deliver_text hs l hl l.tail chunks
    rw [himage]
    obtain ⟨htexts, hstuck⟩ := @ih ⟨[], s.txtPotenciometro ++ [l.text], image⟩ rfl
    refine ⟨?_, hstuck⟩
    rw [htexts]
    simp
  | @last l pre chunks x y hl _ hlf =>
    intro s hs
    obtain ⟨image, himage⟩ := deliver_text hs l hl y chunks
    have hcr : CR ∉ chunks.flatten := fun h => absurd (hlf CR h) (by decide)
    rw [himage, deliver_open (by simpa using hcr)]
    refine ⟨rfl, ?_⟩
    rw [stuck_iff]
    intro hhead
    exact hcr (by simpa using List.mem_of_mem_head? hhead)

/-- The text of the lines. -/
theorem countP_stream (lines : List TextLine) :
    (stream lines).countP isText = (lines.map TextLine.text).flatten.countP isText := by
  induction lines with
  | nil => rfl
  | cons l lines ih =>
    have htail : l.tail.countP isText = 0 := by
      rw [List.countP_eq_zero]
      intro c hc
      rcases l.tail_end c hc with rfl | rfl <;> decide
    have hcr : isText CR = false := by decide
    have hcons : stream (l :: lines) = l.text ++ CR :: l.tail ++ stream lines := rfl
    rw [hcons]
    simp [List.countP_append, ih, htail, hcr]

theorem head_stream {l : TextLine} (hl : l.text.head? ≠ some LF) (lines : List TextLine) :
    ∃ c, (stream (l :: lines)).head? = some c ∧ l.text.head? = some c ∧ isText c = true := by
  obtain ⟨c, text, htext⟩ := List.exists_cons_of_ne_nil l.text_ne
  refine ⟨c, by simp [stream, htext], by rw [htext]; rfl, ?_⟩
  have hcr : c ≠ CR := fun h => l.text_cr (by simp [htext, h])
  have hlf : c ≠ LF := fun h => hl (by simp [htext, h])
  simp [isText, hcr, hlf]

/-- What was lost after the end of a line is not shown. -/
theorem lost {e : List Char} (hs : s.recDataString = []) (hparted : ∀ l ∈ lines, l.text.head? ≠ some LF) (he : e ≠ [])
    (hchunks : stream lines = e ++ chunks.flatten) :
    (s.deliver chunks).txtPotenciometro ≠ s.txtPotenciometro ++ lines.map TextLine.text := by
  intro htexts
  obtain ⟨texts, htexts', hcount⟩ := @deliver_count chunks s
  obtain rfl : texts = lines.map TextLine.text :=
    List.append_cancel_left (htexts'.symm.trans htexts)
  have hlines : lines ≠ [] := by
    rintro rfl
    simp [stream, he] at hchunks
  obtain ⟨l, lines, rfl⟩ := List.exists_cons_of_ne_nil hlines
  obtain ⟨c, hc, -, htext⟩ := head_stream (hparted l List.mem_cons_self) lines
  have hpos : 0 < e.countP isText := by
    rw [hchunks, List.head?_append_of_ne_nil _ he] at hc
    exact List.countP_pos_iff.2 ⟨c, List.mem_of_mem_head? hc, htext⟩
  rw [← countP_stream, hchunks, List.countP_append, hs, List.countP_nil] at hcount
  omega

/-- A chunk that starts with a carriage return blocks the activity. -/
theorem blocked (hs : s.recDataString = []) (hne : ∀ c ∈ chunks, c ≠ [])
    (hhead : chunks.flatten.head? = some CR) : (s.deliver chunks).Stuck := by
  obtain ⟨c, rest, rfl⟩ := Chunks.exists_head hne hhead
  have hkeep : s.handleMessage ⟨handlerState, CR :: c⟩ = { s with recDataString := CR :: c } := by
    have hidx : ¬ indexOf (s.recDataString ++ CR :: c) CR > 0 := by
      rw [hs, indexOf_first (by simp)]
      decide
    rw [handle_keep hidx, hs, List.nil_append]
  rw [stuck_iff, deliver_cons, hkeep]
  exact (deliver_head rfl).1

/-- The rest of a line's end, after the chunk that ended it. -/
theorem leftover {e : List Char} (hs : s.recDataString = []) (hne : ∀ c ∈ chunks, c ≠ [])
    (hparted : ∀ l ∈ lines, l.text.head? ≠ some LF) (he : e ≠ []) (hend : ∀ c ∈ e, c = CR ∨ c = LF) (hchunks : chunks.flatten = e ++ stream lines)
    (htexts : (s.deliver chunks).txtPotenciometro = s.txtPotenciometro ++ lines.map TextLine.text)
    (hstuck : ¬ (s.deliver chunks).Stuck) : lines = [] ∧ ∀ c ∈ e, c = LF := by
  obtain ⟨c, hc⟩ : ∃ c, e.head? = some c := Option.isSome_iff_exists.1 (List.isSome_head?.2 he)
  have hhead : chunks.flatten.head? = some c := by
    rw [hchunks, List.head?_append_of_ne_nil _ he, hc]
  rcases hend c (List.mem_of_mem_head? hc) with rfl | rfl
  · exact absurd (blocked hs hne hhead) hstuck
  -- a text that is shown now would begin with the line feed
  have hcr : CR ∉ chunks.flatten := by
    intro hcr
    obtain ⟨a, texts, hfirst, ha⟩ := deliver_first hs hcr (by rw [hhead]; decide)
    have hlines : lines.map TextLine.text = a :: texts :=
      List.append_cancel_left (htexts.symm.trans hfirst)
    obtain ⟨l, lines, rfl, rfl, -⟩ := List.map_eq_cons_iff.1 hlines
    exact hparted l List.mem_cons_self (ha.trans hhead)
  rw [hchunks] at hcr
  constructor
  · cases lines with
    | nil => rfl
    | cons l lines => exact absurd (by simp [stream]) hcr
  · intro c hc
    refine (hend c hc).resolve_left ?_
    rintro rfl
    exact hcr (List.mem_append_left _ hc)

theorem aligned_of_shows {lines : List TextLine} : ∀ {chunks : List (List Char)} {s : Activity},
    s.recDataString = [] → (∀ c ∈ chunks, c ≠ []) → Parted lines → chunks.flatten = stream lines →
    (s.deliver chunks).txtPotenciometro = s.txtPotenciometro ++ lines.map TextLine.text →
    ¬ (s.deliver chunks).Stuck → Aligned lines chunks := by
  induction lines with
  | nil =>
    intro chunks s _ hne _ hchunks _ _
    have hnil : chunks = [] := by
      cases chunks with
      | nil => rfl
      | cons c chunks =>
        have hc : c = [] := (List.append_eq_nil_iff.1 hchunks).1
        exact absurd hc (hne c (by simp))
    subst hnil
    exact .nil
  | cons l lines ih =>
    intro chunks s hs hne hparted hchunks htexts hstuck
    have hparted' : Parted lines := fun l hl => hparted l (List.mem_of_mem_tail hl)
    have hstream : stream (l :: lines) = l.text ++ CR :: (l.tail ++ stream lines) := by
      simp [stream]
    have hcr : CR ∈ chunks.flatten := by
      rw [hchunks, hstream]
      simp
    obtain ⟨pre, x, y, post, rfl, hpre, hx⟩ := Chunks.exists_first hcr
    obtain ⟨hl, hrest⟩ : pre.flatten ++ x = l.text ∧
        y ++ post.flatten = l.tail ++ stream lines := by
      refine Chunks.split_unique (by simp [hpre, hx]) l.text_cr ?_
      rw [← hstream, ← hchunks]
      simp
    obtain ⟨image, himage⟩ := deliver_text hs l hl y post
    rw [himage] at htexts hstuck
    have htexts' : (deliver ⟨[], s.txtPotenciometro ++ [l.text], image⟩ post).txtPotenciometro =
        s.txtPotenciometro ++ [l.text] ++ lines.map TextLine.text := by
      rw [htexts]
      simp
    have hne' : ∀ c ∈ post, c ≠ [] := fun c hc => hne c (by simp [hc])
    rcases List.append_eq_append_iff.1 hrest with ⟨e, htail, hpost⟩ | ⟨e, hy, hpost⟩
    · by_cases he : e = []
      · obtain rfl : y = l.tail := by simp [htail, he]
        exact .cons hl (ih rfl hne' hparted' (by simpa [he] using hpost) htexts' hstuck)
      · have hend : ∀ c ∈ e, c = CR ∨ c = LF := fun c hc => l.tail_end c (by simp [htail, hc])
        obtain ⟨rfl, hlf⟩ := leftover rfl hne' hparted he hend hpost htexts' hstuck
        have hpost' : post.flatten = e := by simpa [stream] using hpost
        exact .last hl (by rw [hpost', htail]) (by rwa [hpost'])
    · by_cases he : e = []
      · obtain rfl : y = l.tail := by simp [hy, he]
        exact .cons hl (ih rfl hne' hparted' (by simpa [he] using hpost.symm) htexts' hstuck)
      · exact absurd htexts' (lost rfl hparted he hpost)

/-- **When the lines are shown as they were sent.**  The texts of the lines are shown, once and in
    order, and the activity goes on, exactly if the chunks go with the lines. -/
theorem framing_iff (hne : ∀ c ∈ chunks, c ≠ []) (hparted : Parted lines) (hchunks : chunks.flatten = stream lines) :
    ((onCreate.deliver chunks).txtPotenciometro = lines.map TextLine.text ∧
      ¬ (onCreate.deliver chunks).Stuck) ↔ Aligned lines chunks :=
  ⟨fun h => aligned_of_shows rfl hne hparted hchunks h.1 h.2, fun h => h.shows rfl⟩

/-- What the firmware prints when the button is pressed. -/
def pressed : TextLine where
  text := "Boton Presionado".toList
  tail := [CR, LF]
  text_ne := by decide
  text_cr := by decide
  tail_end := by simp

/-- What the firmware prints when the button is released. -/
def released : TextLine where
  text := "Boton Liberado".toList
  tail := [CR, LF]
  text_ne := by decide
  text_cr := by decide
  tail_end := by simp

/-- The first line in two chunks, and the second one in one. -/
theorem framing_iff_pressed : (onCreate.deliver ["Boton ".toList,
    "Presionado".toList ++ [CR, CR, LF], "Boton Liberado".toList ++ [CR, CR, LF]]).txtPotenciometro =
      [pressed.text, released.text] := by
  have haligned : Aligned [pressed, released]
      (["Boton ".toList] ++ ("Presionado".toList ++ CR :: pressed.tail) ::
        ([] ++ ("Boton Liberado".toList ++ CR :: released.tail) :: [])) :=
    .cons rfl (.cons rfl .nil)
  have hne : ∀ c ∈ ["Boton ".toList, "Presionado".toList ++ [CR, CR, LF],
      "Boton Liberado".toList ++ [CR, CR, LF]], c ≠ [] := by decide
  have hparted : Parted [pressed, released] := by
    intro l hl
    rw [List.mem_singleton.1 hl]
    decide
  exact ((framing_iff hne hparted rfl).2 haligned).1

/-- The two lines in one chunk: the second one is lost.  Cut after the first carriage return: the
    second one is not shown, and nor is anything after it. -/
theorem not_framing_released :
    myputs (pressed.text ++ [CR, LF] ++ released.text ++ [CR, LF]) = stream [pressed, released] ∧
    (onCreate.deliver [stream [pressed, released]]).txtPotenciometro = [pressed.text] ∧
    (onCreate.deliver [pressed.text ++ [CR], [CR, LF] ++ stream [released]]).txtPotenciometro =
      [pressed.text] ∧
    (onCreate.deliver [pressed.text ++ [CR], [CR, LF] ++ stream [released]]).Stuck :=
  ⟨rfl, rfl, rfl, stuck_iff.2 rfl⟩

end Bluepill.Comunicacion
