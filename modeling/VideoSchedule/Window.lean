import VideoSchedule.Arena

/-!
The window: every live picture of a session, in the order in which they entered, addressed by
handles. It is an arena that is known to be sound, so a picture is live if and only if its handle is
in the queue. `find?` is the view of a window; a lemma says what each operation does to it.
-/

namespace VideoSchedule

structure Window (ι : Type) extends Arena ι where
  sound : toArena.Sound
deriving DecidableEq

namespace Window

variable {ι : Type}

def empty : Window ι := ⟨{}, Arena.sound_empty⟩

instance : EmptyCollection (Window ι) := ⟨empty⟩

instance : Inhabited (Window ι) := ⟨empty⟩

@[ext]
theorem eq_of_arena_eq {first second : Window ι} (same : first.toArena = second.toArena) :
    first = second := by
  cases first
  cases second
  cases same
  rfl

def handles (window : Window ι) : List Handle := window.order

def find? (window : Window ι) (handle : Handle) : Option (Picture ι) :=
  window.toArena.find? handle

def entries (window : Window ι) : List (Handle × Picture ι) := window.toArena.entries

def pictures (window : Window ι) : List (Picture ι) := window.entries.map Prod.snd

def select (window : Window ι) (condition : Handle → Picture ι → Bool) : List Handle :=
  (window.entries.filter fun entry => condition entry.1 entry.2).map Prod.fst

def enter (picture : Picture ι) (window : Window ι) : Handle × Window ι :=
  ((window.toArena.enter picture).1, ⟨(window.toArena.enter picture).2, window.sound.enter picture⟩)

def adjust (handle : Handle) (change : Picture ι → Picture ι) (window : Window ι) : Window ι :=
  ⟨window.toArena.adjust handle change, window.sound.adjust handle change⟩

def erase (handle : Handle) (window : Window ι) : Window ι :=
  ⟨(Arena.remove handle window.toArena).state, window.sound.remove handle⟩

def onArena {α : Type} (action : Action (Arena ι) α)
    (keeps : ∀ {arena : Arena ι}, arena.Sound → (action arena).state.Sound) :
    Action (Window ι) α := fun window =>
  let outcome := action window.toArena
  ⟨outcome.result, ⟨outcome.state, keeps window.sound⟩, outcome.notices⟩

def fetch (handle : Handle) : Action (Window ι) (Picture ι) :=
  onArena (Arena.fetch handle) (·.fetch handle)

def alter (handle : Handle) (change : Picture ι → Picture ι) : Action (Window ι) Unit :=
  onArena (Arena.alter handle change) (·.alter handle change)

def remove (handle : Handle) : Action (Window ι) (Picture ι) :=
  onArena (Arena.remove handle) (·.remove handle)

def unhold (level : HoldLevel) (handle : Handle) : Action (Window ι) Unit := do
  let picture ← fetch handle
  if picture.holds.get level = 0 then
    Action.refuse (.countUnderflow picture.displayOrder level) .invalidReferenceState
  else Action.modify (adjust handle (·.unhold level))

theorem handles_nodup (window : Window ι) : window.handles.Nodup := window.sound.order_nodup

theorem nextHandle_not_mem (window : Window ι) : window.nextHandle ∉ window.handles :=
  window.sound.nextHandle_not_mem

theorem handles_enter (picture : Picture ι) (window : Window ι) :
    (window.enter picture).2.handles = window.handles ++ [window.nextHandle] := rfl

theorem handles_adjust (handle : Handle) (change : Picture ι → Picture ι) (window : Window ι) :
    (window.adjust handle change).handles = window.handles := rfl

theorem handles_erase (handle : Handle) (window : Window ι) :
    (window.erase handle).handles = window.handles.filter (· != handle) :=
  window.sound.order_remove handle

theorem find?_adjust (handle other : Handle) (change : Picture ι → Picture ι)
    (window : Window ι) :
    (window.adjust handle change).find? other =
      if other = handle then (window.find? other).map change else window.find? other :=
  window.toArena.find?_adjust handle other change

theorem find?_erase (handle other : Handle) (window : Window ι) :
    (window.erase handle).find? other = if other = handle then none else window.find? other :=
  window.sound.find?_remove handle other

theorem find?_enter (picture : Picture ι) (other : Handle) (window : Window ι) :
    (window.enter picture).2.find? other =
      if other = window.nextHandle then some picture else window.find? other :=
  window.sound.find?_enter picture other

end Window

end VideoSchedule
