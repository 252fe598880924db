import DistributedMathArh.MathCore.Containers

namespace DistributedMathArh

open Matrix

/-- A matrix of `2 * k` rows and columns. -/
abbrev Square := Σ k, Matrix (Index k) (Index k) ℝ

/-- `resize`: a matrix of the same size is kept; new entries are overwritten by every caller. -/
def Square.resize (m : Square) (k : Nat) : Square := if m.1 = k then m else ⟨k, 0⟩

structure DipolesObject where
  n : Nat
  an : ℝ
  m1 : Square
  m2 : Square
  f : List ℝ

namespace Container

variable {n : Nat}

def count : Container n → Nat
  | xi@(flat _) => xi.size / 2
  | nested _ => n

/-- What an object of `k` dipoles reads of the container. -/
def view (k : Nat) : Container n → Container k
  | flat xi => flat fun j => if h : j < 2 * n then xi ⟨j, h⟩ else 0
  | nested xi => nested fun coord i => if h : i < n then xi coord ⟨i, h⟩ else 0

theorem view_self (xi : Container n) : xi.view n = xi := by
  cases xi with
  | flat xi => simp [view]
  | nested xi => simp [view]

theorem count_eq (xi : Container n) : xi.count = n := by
  cases xi with
  | flat xi => simp [count, size]
  | nested xi => rfl

theorem size_div_two_iff (xi : Container n) :
    xi.size / 2 = n ↔ (∃ eta, xi = flat eta) ∨ n = 1 := by
  cases xi with
  | flat xi => simp [size]
  | nested xi => simp [size, eq_comm]

end Container

namespace DipolesObject

variable {n : Nat}

/-- The default constructor; nothing sets `n_`. -/
noncomputable def default (n : Nat) : DipolesObject := ⟨n, params.a, ⟨0, 0⟩, ⟨0, 0⟩, []⟩

noncomputable def initArrays (o : DipolesObject) : DipolesObject :=
  let an := params.a / o.n
  { o with
    an := an
    m1 := o.m1.resize o.n
    m2 := o.m2.resize o.n
    f := (List.replicate o.n [an * params.eps, 0]).flatten ++
      (List.replicate o.n [0, an * params.eps]).flatten }

noncomputable def setMatrixes (o : DipolesObject) (xi : Container n) : DipolesObject :=
  { o with
    m1 := ⟨o.m1.1, Matrix.of fun x y => if h : x.1 < o.n ∧ y.1 < o.n then
      (xi.view o.n).block1 o.an ⟨x.1, h.1⟩ ⟨y.1, h.2⟩ x.2 y.2 else o.m1.2 x y⟩
    m2 := ⟨o.m2.1, Matrix.of fun x y => if h : x.1 < o.n ∧ y.1 < o.n then
      (xi.view o.n).block2 o.an ⟨x.1, h.1⟩ ⟨y.1, h.2⟩ x.2 y.2 else o.m2.2 x y⟩ }

noncomputable def construct (xi : Container n) : DipolesObject :=
  (initArrays (default xi.count)).setMatrixes xi

noncomputable def setNewCoordinates (o : DipolesObject) (xi : Container n) : DipolesObject :=
  setMatrixes (if o.f.length ≠ xi.size * 2 then initArrays { o with n := xi.size / 2 } else o) xi

noncomputable def loadFromMatrix (o : DipolesObject) {r c : Nat} (xi : Matrix (Fin r) (Fin c) ℝ)
    (h : 2 * (r / 4) ≤ c) : DipolesObject :=
  { initArrays { o with n := r / 4 } with
    m1 := ⟨r / 4, Matrix.of fun x y => xi ⟨2 * x.1 + x.2, by omega⟩ ⟨2 * y.1 + y.2, by omega⟩⟩
    m2 := ⟨r / 4, Matrix.of fun x y =>
      xi ⟨r - 2 * (r / 4) + (2 * x.1 + x.2), by omega⟩ ⟨2 * y.1 + y.2, by omega⟩⟩ }

inductive Reachable : DipolesObject → Prop
  | default (n : Nat) : Reachable (default n)
  | construct {n : Nat} (hn : 1 ≤ n) (xi : Container n) : Reachable (construct xi)
  | loadFromMatrix {o : DipolesObject} {r c : Nat} (ho : Reachable o)
      (xi : Matrix (Fin r) (Fin c) ℝ) (h : 2 * (r / 4) ≤ c) : Reachable (o.loadFromMatrix xi h)
  | setNewCoordinates {o : DipolesObject} {n : Nat} (ho : Reachable o) (hn : 1 ≤ n)
      (xi : Container n) : Reachable (o.setNewCoordinates xi)

def entries (f : FullIndex n → ℝ) : List ℝ :=
  ((List.finRange n).flatMap fun i => [f (.inl (i, 0)), f (.inl (i, 1))]) ++
    (List.finRange n).flatMap fun i => [f (.inr (i, 0)), f (.inr (i, 1))]

def ofDipoles (d : Dipoles n) : DipolesObject := ⟨n, d.an, ⟨n, d.m1⟩, ⟨n, d.m2⟩, entries d.f⟩

def Initialised (o : DipolesObject) : Prop :=
  ∃ m1 m2, o = ofDipoles { Dipoles.initArrays o.n with m1 := m1, m2 := m2 }

theorem length_entries (f : FullIndex n → ℝ) : (entries f).length = 4 * n := by
  simp [entries, List.length_flatMap]
  omega

theorem entries_initArrays (n : Nat) : entries (Dipoles.initArrays n).f =
    (List.replicate n [params.a / n * params.eps, 0]).flatten ++
      (List.replicate n [0, params.a / n * params.eps]).flatten := by
  simp [entries, Dipoles.initArrays, List.flatMap_def, List.map_const']

theorem exists_resize (m : Square) (k : Nat) : ∃ b, m.resize k = ⟨k, b⟩ := by
  rw [Square.resize]
  split
  · rename_i h
    subst h
    exact ⟨m.2, rfl⟩
  · exact ⟨0, rfl⟩

theorem initialised_initArrays (o : DipolesObject) : o.initArrays.Initialised := by
  obtain ⟨m1, h₁⟩ := exists_resize o.m1 o.n
  obtain ⟨m2, h₂⟩ := exists_resize o.m2 o.n
  refine ⟨m1, m2, ?_⟩
  simp only [initArrays, ofDipoles, entries_initArrays, h₁, h₂]
  rfl

theorem setMatrixes_ofDipoles {k : Nat} (d : Dipoles k) (xi : Container n) :
    (ofDipoles d).setMatrixes xi = ofDipoles (Container.setMatrixes d (xi.view k)) := by
  simp [setMatrixes, ofDipoles, Container.setMatrixes]
  exact ⟨rfl, rfl⟩

theorem Initialised.setMatrixes_eq {o : DipolesObject} (h : o.Initialised) (xi : Container n) :
    o.setMatrixes xi =
      ofDipoles (Container.setMatrixes (Dipoles.initArrays o.n) (xi.view o.n)) := by
  obtain ⟨m1, m2, h⟩ := h
  rw [h, setMatrixes_ofDipoles]
  rfl

theorem initialised_ofDipoles (xi : Container n) :
    (ofDipoles (Container.setMatrixes (Dipoles.initArrays n) xi)).Initialised := ⟨_, _, rfl⟩

theorem construct_eq (xi : Container n) :
    construct xi = ofDipoles (Container.setMatrixes (Dipoles.initArrays n) xi) := by
  have h := (initialised_initArrays (default xi.count)).setMatrixes_eq xi
  rw [show (initArrays (default xi.count)).n = n from xi.count_eq, xi.view_self] at h
  exact h

theorem initialised_loadFromMatrix (o : DipolesObject) {r c : Nat}
    (xi : Matrix (Fin r) (Fin c) ℝ) (h : 2 * (r / 4) ≤ c) : (o.loadFromMatrix xi h).Initialised := by
  obtain ⟨m1, m2, ho⟩ := initialised_initArrays { o with n := r / 4 }
  rw [loadFromMatrix, ho]
  exact ⟨_, _, rfl⟩

theorem two_le_size (hn : 1 ≤ n) (xi : Container n) : 2 ≤ xi.size := by
  cases xi with
  | flat xi => exact Nat.mul_le_mul_left 2 hn
  | nested xi => exact le_rfl

theorem setNewCoordinates_eq {o : DipolesObject} (ho : (∃ k, o = default k) ∨ o.Initialised)
    (hn : 1 ≤ n) (xi : Container n) : o.setNewCoordinates xi = ofDipoles (Container.setMatrixes
      (Dipoles.initArrays (xi.size / 2)) (xi.view (xi.size / 2))) := by
  rw [setNewCoordinates]
  split
  · exact (initialised_initArrays _).setMatrixes_eq xi
  · rename_i hsize
    have hlength : o.f.length = xi.size * 2 := not_not.mp hsize
    rcases ho with ⟨k, rfl⟩ | ho
    · have := two_le_size hn xi
      simp only [default, List.length_nil] at hlength
      omega
    · have hcount : o.n = xi.size / 2 := by
        obtain ⟨m1, m2, h⟩ := ho
        rw [h, ofDipoles, length_entries] at hlength
        omega
      rw [ho.setMatrixes_eq, hcount]

theorem initialised_of_reachable {o : DipolesObject} (h : Reachable o) :
    (∃ k, o = default k) ∨ o.Initialised := by
  induction h with
  | default k => exact .inl ⟨k, rfl⟩
  | construct hn xi =>
    rw [construct_eq]
    exact .inr (initialised_ofDipoles _)
  | loadFromMatrix ho xi h ih => exact .inr (initialised_loadFromMatrix _ xi h)
  | setNewCoordinates ho hn xi ih =>
    rw [setNewCoordinates_eq ih hn]
    exact .inr (initialised_ofDipoles _)

theorem setNewCoordinates_eq_construct {o : DipolesObject} (ho : Reachable o) (hn : 1 ≤ n)
    (xi : Container n) : o.setNewCoordinates xi = construct xi ↔ xi.size / 2 = n := by
  rw [setNewCoordinates_eq (initialised_of_reachable ho) hn, construct_eq]
  constructor
  · intro h
    exact congrArg DipolesObject.n h
  · intro h
    rw [h, xi.view_self]

/-- A reused object is as a new one, except that it takes a pair of arrays for one dipole. -/
theorem setNewCoordinates_eq_construct_iff {o : DipolesObject} (ho : Reachable o) {n : Nat}
    (hn : 1 ≤ n) (xi : Container n) :
    o.setNewCoordinates xi = construct xi ↔ (∃ eta, xi = .flat eta) ∨ n = 1 := by
  rw [setNewCoordinates_eq_construct ho hn, Container.size_div_two_iff]

theorem setNewCoordinates_default :
    (default 7).setNewCoordinates (.flat ![0, 3, 1, 5] : Container 2) =
      construct (.flat ![0, 3, 1, 5] : Container 2) := by
  apply (setNewCoordinates_eq_construct_iff (.default 7) one_le_two _).mpr
  exact .inl ⟨_, rfl⟩

theorem setNewCoordinates_ne_construct :
    (default 7).setNewCoordinates (.nested ![![0, 3], ![1, 5]] : Container 2) ≠
      construct (.nested ![![0, 3], ![1, 5]] : Container 2) := by
  intro h
  have := (setNewCoordinates_eq_construct (.default 7) one_le_two _).mp h
  exact absurd this (by decide)

end DipolesObject

end DistributedMathArh
