import ShardProxy.Backend.Pool

/-!
# What pools keep

A pool neither makes connections nor loses them: those that it had or was given are idle afterwards,
or they were handed out. It answers a borrower in one of four ways, and counts what it lends and
what it reserves. Neither borrowers nor those who give back open or close it.
-/

namespace ShardProxy.Backend

namespace Pool

/-- The connections that a borrower is given. -/
def Acquired.conns : Acquired → List Conn
  | lent conn => [conn]
  | closed | full | reserved => []

theorem idle_acquire (p : Pool) : p.idle = p.acquire.1.conns ++ p.acquire.2.idle := by
  unfold acquire
  split
  · rfl
  · split
    · rename_i conn idle hidle
      rw [hidle]
      rfl
    · split
      · rfl
      · rfl

theorem idle_takeIdle (p : Pool) : p.idle = p.takeIdle.1.toList ++ p.takeIdle.2.idle := by
  unfold takeIdle
  split
  · rfl
  · split
    · rename_i conn idle hidle
      rw [hidle]
      rfl
    · rfl

theorem idle_keep (p : Pool) (conn : Conn) :
    (p.keep conn).1.toList ++ (p.keep conn).2.idle = conn :: p.idle := by
  unfold keep
  split
  · rfl
  · rfl

theorem idle_openWith (p : Pool) (conn : Conn) :
    (p.openWith conn).1.toList ++ (p.openWith conn).2.idle = conn :: p.idle :=
  idle_keep { p with isOpen := true } conn

theorem idle_release (p : Pool) (conn : Conn) :
    (p.release conn).1.toList ++ (p.release conn).2.idle = conn :: p.idle := by
  unfold release
  dsimp only
  split
  · exact idle_keep { p with active := p.active - 1 } conn
  · rfl

/-- What a borrower can be told, and what the pool then is. -/
theorem acquire_cases (p : Pool) :
    (p.isOpen = false ∧ p.acquire = (.closed, p)) ∨
    (∃ conn idle, p.idle = conn :: idle ∧
      p.acquire = (.lent conn, { p with idle, active := p.active + 1 })) ∨
    (p.hasRoom = true ∧ p.acquire = (.reserved, { p with active := p.active + 1 })) ∨
    (p.idle = [] ∧ p.hasRoom = false ∧ p.acquire = (.full, p)) := by
  unfold acquire
  by_cases hopen : p.isOpen = true
  · rw [hopen]
    cases hidle : p.idle with
    | cons conn idle => exact .inr (.inl ⟨conn, idle, rfl, rfl⟩)
    | nil =>
        by_cases hroom : p.hasRoom = true
        · exact .inr (.inr (.inl ⟨hroom, by simp [hroom]⟩))
        · exact .inr (.inr (.inr ⟨rfl, by simpa using hroom, by simp [hroom]⟩))
  · exact .inl ⟨by simpa using hopen, by simp [hopen]⟩

theorem takeIdle_cases (p : Pool) :
    (∃ conn idle, p.idle = conn :: idle ∧
      p.takeIdle = (some conn, { p with idle, active := p.active + 1 })) ∨
    ((p.isOpen = true → p.idle = []) ∧ p.takeIdle = (none, p)) := by
  unfold takeIdle
  by_cases hopen : p.isOpen = true
  · rw [hopen]
    cases hidle : p.idle with
    | cons conn idle => exact .inl ⟨conn, idle, rfl, rfl⟩
    | nil => exact .inr ⟨fun _ => rfl, rfl⟩
  · exact .inr ⟨fun h => absurd h hopen, by simp [hopen]⟩

/-! ## Whether they are open -/

theorem isOpen_keep (p : Pool) (conn : Conn) : (p.keep conn).2.isOpen = p.isOpen := by
  unfold keep
  split
  · rfl
  · rfl

theorem isOpen_release (p : Pool) (conn : Conn) : (p.release conn).2.isOpen = p.isOpen := by
  unfold release
  dsimp only
  split
  · exact isOpen_keep _ conn
  · rfl

theorem isOpen_acquire (p : Pool) : p.acquire.2.isOpen = p.isOpen := by
  obtain ⟨-, h⟩ | ⟨conn, idle, -, h⟩ | ⟨-, h⟩ | ⟨-, -, h⟩ := p.acquire_cases
  all_goals rw [h]

theorem isOpen_takeIdle (p : Pool) : p.takeIdle.2.isOpen = p.isOpen := by
  obtain ⟨conn, idle, -, h⟩ | ⟨-, h⟩ := p.takeIdle_cases
  all_goals rw [h]

end Pool

end ShardProxy.Backend
