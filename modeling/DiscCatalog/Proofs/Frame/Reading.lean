import DiscCatalog.Proofs.Frame.Terminators

namespace DiscCatalog

namespace Frame

def opening (frame : List UInt8) : Except FrameFault (Operation × Status × UInt32) :=
  if frame.take 4 ≠ magic then .error (.badMagic (frame.take 4))
  else if LittleEndian.decode ((frame.drop 4).take 2) ≠ version then
    .error (.unsupportedVersion (LittleEndian.decode ((frame.drop 4).take 2)))
  else match Operation.ofTag? (LittleEndian.decode ((frame.drop 6).take 1)) with
    | none => .error (.unknownOperation (LittleEndian.decode ((frame.drop 6).take 1)))
    | some operation => match Status.ofTag? (LittleEndian.decode ((frame.drop 7).take 1)) with
      | none => .error (.unknownStatus (LittleEndian.decode ((frame.drop 7).take 1)))
      | some status => .ok (operation, status, headerOrigin frame)

end Frame

theorem Message.decode_eq_parts {frame : List UInt8} (size : frame.length = Frame.size) : decode frame = do
    let (operation, status, origin) ← Frame.opening frame
    let catalog ← CatalogEntry.ofBlock ((frame.drop Frame.headerSize).take CatalogEntry.frameSize)
    let track ← TrackEntry.ofBlock (((frame.drop Frame.headerSize).drop CatalogEntry.frameSize).take TrackEntry.frameSize)
    let diagnostic ← Slot.diagnostic.read
      ((((frame.drop Frame.headerSize).drop CatalogEntry.frameSize).drop TrackEntry.frameSize).take Slot.diagnostic.width)
    return { origin, operation, status, catalog, track, diagnostic } := by
  unfold decode Frame.opening
  dsimp only
  rw [if_neg (not_not.2 size)]
  by_cases magic : frame.take 4 = Frame.magic
  case neg => rw [if_pos magic, if_pos magic]; rfl
  rw [if_neg (not_not.2 magic), if_neg (not_not.2 magic)]
  by_cases version : LittleEndian.decode ((frame.drop 4).take 2) = Frame.version
  case neg => rw [if_pos version, if_pos version]; rfl
  rw [if_neg (not_not.2 version), if_neg (not_not.2 version)]
  cases Operation.ofTag? (LittleEndian.decode ((frame.drop 6).take 1)) with
  | none => rfl
  | some operation => cases Status.ofTag? (LittleEndian.decode ((frame.drop 7).take 1)) <;> rfl

namespace Frame

abbrev Reading (α : Type) := StateT (List UInt8) (ExceptT FrameFault Option) α

namespace Reading

variable {α β : Type}

def take (n : Nat) : Reading (List UInt8) := fun left =>
  ExceptT.mk (if n ≤ left.length then some (.ok (left.take n, left.drop n)) else none)

def settled (result : Except FrameFault α) : Reading α :=
  match result with
  | .ok a => pure a
  | .error fault => throw fault

def text (s : Slot) : Reading String := do settled (s.read (← take s.width))

def header : Reading (Operation × Status × UInt32) := do
  let magic ← take 4
  settled (if magic = Frame.magic then .ok () else .error (.badMagic magic))
  let version := LittleEndian.decode (← take 2)
  settled (if version = Frame.version then .ok () else .error (.unsupportedVersion version))
  let operationTag := LittleEndian.decode (← take 1)
  let operation ← settled ((Operation.ofTag? operationTag).elim (.error (.unknownOperation operationTag)) .ok)
  let statusTag := LittleEndian.decode (← take 1)
  let status ← settled ((Status.ofTag? statusTag).elim (.error (.unknownStatus statusTag)) .ok)
  return (operation, status, LittleEndian.toUInt32 (← take 4))

def catalogEntry : Reading CatalogEntry := do
  let catalog ← text .catalog
  let title ← text .title
  let kind ← text .kind
  let artist ← text .artist
  return { catalog, title, kind, artist }

def trackEntry : Reading TrackEntry := do
  let catalog ← text .trackCatalog
  let number := LittleEndian.toInt32 (← take 4)
  let text ← text .trackText
  return { catalog, number, text }

/-- The message in a frame of the right size, read from the first byte to the last. -/
def message (frame : List UInt8) : Option (Except FrameFault Message) :=
  if frame.length ≠ Frame.size then some (.error (.length Frame.size frame.length))
  else ExceptT.run <| StateT.run' (s := frame) do
    let (operation, status, origin) ← header
    let catalog ← catalogEntry
    let track ← trackEntry
    let diagnostic ← text .diagnostic
    return { origin, operation, status, catalog, track, diagnostic }

def Takes (reading : Reading α) (size : Nat) (value : List UInt8 → Except FrameFault α) : Prop :=
  ∀ left : List UInt8, size ≤ left.length → reading left = some ((value left).map (·, left.drop size))

theorem takes_take (n : Nat) : Takes (take n) n fun left => pure (left.take n) := fun _ enough => if_pos enough

theorem takes_settled (result : Except FrameFault α) : Takes (settled result) 0 fun _ => result := by
  intro left _
  cases result <;> rfl

theorem takes_pure (a : α) : Takes (pure a) 0 fun _ => pure a := fun _ _ => rfl

theorem Takes.bind {reading : Reading α} {next : α → Reading β} {m n : Nat}
    {value : List UInt8 → Except FrameFault α} {others : α → List UInt8 → Except FrameFault β}
    (first : Takes reading m value) (second : ∀ a, Takes (next a) n (others a)) :
    Takes (reading >>= next) (m + n) fun left => value left >>= fun a => others a (left.drop m) := by
  intro left enough
  have one := first left (by omega)
  change (reading left >>= _) = _
  rw [one]
  dsimp only
  cases value left with
  | error fault => rfl
  | ok a =>
    have two := second a (left.drop m) (by rw [List.length_drop]; omega)
    rw [List.drop_drop] at two
    exact two

theorem Takes.run {reading : Reading α} {size : Nat} {value : List UInt8 → Except FrameFault α} {left : List UInt8}
    (h : Takes reading size value) (enough : size ≤ left.length) : (reading.run' left).run = some (value left) := by
  have whole := h left enough
  change (Prod.fst <$> (reading left : ExceptT FrameFault Option (α × List UInt8))) = some (value left)
  rw [whole]
  cases value left <;> rfl

theorem takes_text (s : Slot) : Takes (text s) s.width fun left => s.read (left.take s.width) :=
  (takes_take s.width).bind fun block => takes_settled (s.read block)

theorem takes_catalogEntry : Takes catalogEntry CatalogEntry.frameSize
    fun left => CatalogEntry.ofBlock (left.take CatalogEntry.frameSize) := by
  have steps := (takes_text .catalog).bind fun catalog => (takes_text .title).bind fun title =>
    (takes_text .kind).bind fun kind => (takes_text .artist).bind fun artist =>
      takes_pure { catalog, title, kind, artist : CatalogEntry }
  intro left enough
  unfold CatalogEntry.ofBlock
  simp only [List.drop_take, List.take_take]
  exact steps left enough

theorem takes_trackEntry : Takes trackEntry TrackEntry.frameSize
    fun left => TrackEntry.ofBlock (left.take TrackEntry.frameSize) := by
  have steps := (takes_text .trackCatalog).bind fun catalog => (takes_take 4).bind fun number =>
    (takes_text .trackText).bind fun text =>
      takes_pure { catalog, number := LittleEndian.toInt32 number, text : TrackEntry }
  intro left enough
  unfold TrackEntry.ofBlock
  simp only [List.drop_take, List.take_take]
  exact steps left enough

theorem takes_header : Takes header headerSize opening := by
  have steps := (takes_take 4).bind fun magic =>
    (takes_settled (if magic = Frame.magic then .ok () else .error (.badMagic magic))).bind fun _ =>
    (takes_take 2).bind fun version =>
    (takes_settled (if LittleEndian.decode version = Frame.version then .ok ()
      else .error (.unsupportedVersion (LittleEndian.decode version)))).bind fun _ =>
    (takes_take 1).bind fun operationTag =>
    (takes_settled ((Operation.ofTag? (LittleEndian.decode operationTag)).elim
      (.error (.unknownOperation (LittleEndian.decode operationTag))) .ok)).bind fun operation =>
    (takes_take 1).bind fun statusTag =>
    (takes_settled ((Status.ofTag? (LittleEndian.decode statusTag)).elim
      (.error (.unknownStatus (LittleEndian.decode statusTag))) .ok)).bind fun status =>
    (takes_take 4).bind fun origin => takes_pure (operation, status, LittleEndian.toUInt32 origin)
  intro left enough
  refine (steps left enough).trans ?_
  congr 2
  unfold opening
  simp only [pure_bind, List.drop_drop]
  by_cases magic : left.take 4 = Frame.magic
  case neg => rw [if_pos magic, if_neg magic]; rfl
  rw [if_neg (not_not.2 magic), if_pos magic]
  by_cases version : LittleEndian.decode ((left.drop 4).take 2) = Frame.version
  case neg => rw [if_pos version, if_neg version]; rfl
  rw [if_neg (not_not.2 version), if_pos version]
  cases Operation.ofTag? (LittleEndian.decode ((left.drop 6).take 1)) with
  | none => rfl
  | some operation => cases Status.ofTag? (LittleEndian.decode ((left.drop 7).take 1)) <;> rfl

theorem message_eq (frame : List UInt8) : message frame = some (Message.decode frame) := by
  unfold message
  by_cases size : frame.length = Frame.size
  case neg =>
    rw [if_pos size, Message.decode, if_pos size]
    rfl
  have steps := takes_header.bind fun opened => takes_catalogEntry.bind fun catalog =>
    takes_trackEntry.bind fun track => (takes_text .diagnostic).bind fun diagnostic =>
      takes_pure ({
        origin := opened.2.2, operation := opened.1, status := opened.2.1, catalog, track, diagnostic } : Message)
  rw [if_neg (not_not.2 size), Message.decode_eq_parts size]
  exact steps.run (by rw [size]; decide)

end Reading

end Frame

end DiscCatalog
