import Tgtc.Backfill
import Tgtc.Maps

/-!
What a scan visits. As long as no scan is left behind by a job when the next one starts, the files that are counted
are the first ones of the library, each of them once, and a job that completes has counted as many as it was asked to.
-/
namespace Tgtc.BackfillRuns
open Runs Maps Backfill

/-- Wherever a page ends, the files after it are admitted by its cursor. -/
def Separated (files : List File) : Prop := files.Pairwise fun f g => f.cursor.admits g = true

instance (files : List File) : Decidable (Separated files) := inferInstanceAs (Decidable (List.Pairwise _ _))

/-- A start takes effect when no scan is left, a job is resumed before it has counted anything, and rules are not all gone
when a scan begins. -/
def Orderly (library : Library) (s : State) : Label → Prop
  | .rules n count => ∀ start ∈ s.starts[n]?, start ≠ .answered → 0 < count.getD 0 → ∀ stage ∈ s.loops, stage = .ended
  | .resume => s.job.status = .paused → s.job.scanned = 0
  | .go n reply => s.loops[n]? = some .entering → ∀ r ∈ reply, 0 < r.rules ∨ library.files = []
  | _ => True

instance (library : Library) (s : State) (l : Label) : Decidable (Orderly library s l) := by
  cases l <;> unfold Orderly <;> infer_instance

abbrev Reached (library : Library) : State → Prop := Reachable (step library) (Orderly library) .start

theorem before_irrefl (f : File) : ¬ f.before f := by
  rintro (later | ⟨_,smaller⟩)
  · exact Nat.lt_irrefl _ later
  · exact String.lt_irrefl _ smaller

theorem before_asymm {f g : File} (first : f.before g) : ¬ g.before f := by
  rintro (later | ⟨same,smaller⟩)
  · rcases first with later' | ⟨same,_⟩
    · exact Nat.lt_asymm later later'
    · omega
  · rcases first with later' | ⟨_,smaller'⟩
    · omega
    · exact String.lt_irrefl _ (String.lt_trans smaller smaller')

theorem before_of_admits {f g : File} (admitted : f.cursor.admits g = true) : f.before g := by
  unfold Cursor.admits File.cursor at admitted
  simp only [Bool.or_eq_true,Bool.and_eq_true,decide_eq_true_eq] at admitted
  have rounded : f.createdAt / 1000 * 1000 ≤ f.createdAt := Nat.div_mul_le_self _ _
  rcases admitted with earlier | ⟨same,smaller⟩
  · exact .inl (by omega)
  · rcases Nat.lt_or_eq_of_le rounded with below | exactly
    · exact .inl (by omega)
    · exact .inr ⟨by omega,smaller⟩

theorem remaining_after {library : Library} (separated : Separated library.files) {seen rest : List File} {last : File}
    (files : library.files = seen ++ last :: rest) : remaining library.files (some last.cursor) = rest := by
  have sorted := library.sorted
  rw [files] at sorted separated ⊢
  have earlier : ∀ f ∈ seen, f.before last := fun f member =>
    (List.pairwise_append.mp sorted).2.2 f member last (List.mem_cons_self ..)
  have later : ∀ g ∈ rest, last.cursor.admits g = true :=
    (List.pairwise_cons.mp (List.pairwise_append.mp separated).2.1).1
  have none_seen : seen.filter last.cursor.admits = [] := by
    rw [List.filter_eq_nil_iff]
    exact fun f member admitted => before_asymm (earlier f member) (before_of_admits admitted)
  have not_last : last.cursor.admits last = false := by
    rw [Bool.eq_false_iff]
    exact fun admitted => before_irrefl last (before_of_admits admitted)
  show (seen ++ last :: rest).filter last.cursor.admits = rest
  rw [List.filter_append,none_seen,List.filter_cons,not_last]
  exact List.filter_eq_self.mpr later

def leftOver : Option (File × List (File × Evidence)) → List File
  | none => []
  | some (_,rest) => rest.map Prod.fst

structure Counts (seen : List File) (job job' : Job) : Prop where
  scanned : job'.scanned = job.scanned + seen.length
  visited : job'.visited = job.visited ++ seen
  limit : job'.limit = job.limit
  status : job'.status = job.status

theorem counts_none (job : Job) : Counts [] job job := ⟨rfl,(List.append_nil _).symm,rfl,rfl⟩

theorem counts_visit (job : Job) (f last : File) (category : Category) : Counts [f] job (job.visit f last category) :=
  ⟨rfl,rfl,rfl,rfl⟩

theorem counts_queue {job : Job} {seen : List File} {f : File} {before : Job} (counts : Counts seen before job) :
    Counts seen before (job.queue f) := ⟨counts.scanned,counts.visited,counts.limit,counts.status⟩

theorem counts_skip {job : Job} {seen : List File} {before : Job} (counts : Counts seen before job) :
    Counts seen before job.skip := ⟨counts.scanned,counts.visited,counts.limit,counts.status⟩

theorem counts_more {job mid job' : Job} {seen more : List File} (first : Counts seen job mid) (then_more : Counts more mid job') :
    Counts (seen ++ more) job job' := by
  refine ⟨?_,?_,then_more.limit.trans first.limit,then_more.status.trans first.status⟩
  · rw [then_more.scanned,first.scanned,List.length_append]
    omega
  · rw [then_more.visited,first.visited,List.append_assoc]

theorem scan_counts (rules : Nat) (last : File) : ∀ (page : List (File × Evidence)) (job : Job),
    ∃ seen, page.map Prod.fst = seen ++ leftOver (scan rules last job page).2 ∧
      Counts seen job (scan rules last job page).1 ∧ (page ≠ [] → seen ≠ []) := by
  intro page
  induction page with
  | nil => exact fun job => ⟨[],rfl,counts_none job,fun some_page => absurd rfl some_page⟩
  | cons entry rest ih =>
    intro job
    obtain ⟨f,e⟩ := entry
    have first := counts_visit job f last (categoryOf rules e)
    have goes_on : ∀ job' : Job, Counts [f] job job' → ∃ seen,
        f :: rest.map Prod.fst = seen ++ leftOver (scan rules last job' rest).2 ∧
          Counts seen job (scan rules last job' rest).1 ∧ (((f,e) :: rest) ≠ [] → seen ≠ []) := by
      intro job' counted
      obtain ⟨seen,split,more,_⟩ := ih job'
      exact ⟨f :: seen,by rw [split,List.cons_append],counts_more counted more,fun _ => List.cons_ne_nil f seen⟩
    unfold scan
    dsimp only
    split
    · split
      · exact goes_on _ (counts_queue first)
      · exact goes_on _ (counts_skip first)
    · split
      · exact ⟨[f],rfl,first,fun _ => List.cons_ne_nil f []⟩
      · exact goes_on _ (counts_skip first)

def Reaches (library : Library) (cursor : Option Cursor) (count : Nat) : Prop :=
  remaining library.files cursor = library.files.drop count

def StageOk (library : Library) (job : Job) : Stage → Prop
  | .entering => job.scanned = 0
  | .fetching _ cursor batchSize => Reaches library cursor job.scanned ∧ 0 < batchSize ∧ job.scanned + batchSize ≤ job.limit
  | .loading _ batch => batch ≠ [] ∧ batch = (library.files.drop job.scanned).take batch.length ∧
      job.scanned + batch.length ≤ job.limit
  | .creating _ last _ rest => rest.map Prod.fst = (library.files.drop job.scanned).take rest.length ∧
      job.scanned + rest.length ≤ job.limit ∧ Reaches library (some last.cursor) (job.scanned + rest.length)
  | .sleeping _ cursor => Reaches library cursor job.scanned ∧ job.scanned ≤ job.limit
  | .ended => True

structure Counted (library : Library) (job : Job) : Prop where
  visited : job.visited = library.files.take job.scanned
  bound : job.scanned ≤ library.files.length
  completed : job.status = .completed → job.scanned = min job.limit library.files.length
  limit : job.status ≠ .idle → 0 < job.limit

structure Inv (library : Library) (s : State) : Prop where
  counted : Counted library s.job
  single : ∀ (m n : Nat) (a b : Stage), s.loops[m]? = some a → s.loops[n]? = some b → a ≠ .ended → b ≠ .ended → m = n
  busy : ∀ (n : Nat) (a : Stage), s.loops[n]? = some a → a ≠ .ended → s.job.status = .running ∨ s.job.status = .cancelled
  stages : ∀ (n : Nat) (a : Stage), s.loops[n]? = some a → StageOk library s.job a

section
variable {library : Library} {s t : State} {n : Nat} {stage : Stage}

section
variable (inv : Inv library s) (there : s.loops[n]? = some stage) (alive : stage ≠ .ended)
include inv there alive

theorem inv_goes {next : Stage}
    (loops : t.loops = s.loops.set n next) (counted : Counted library t.job) (ok : StageOk library t.job next)
    (busy : next ≠ .ended → t.job.status = .running ∨ t.job.status = .cancelled) : Inv library t := by
  have others : ∀ (m : Nat) (a : Stage), t.loops[m]? = some a → m = n ∧ a = next ∨ m ≠ n ∧ a = .ended := by
    intro m a found
    rw [loops] at found
    rcases at_of_set found with here | ⟨other,known⟩
    · exact .inl here
    · refine .inr ⟨other,?_⟩
      by_contra going
      exact other (inv.single m n a stage known there going alive)
  refine ⟨counted,fun m k a b found found' going going' => ?_,fun m a found going => ?_,fun m a found => ?_⟩
  · rcases others m a found with ⟨rfl,_⟩ | ⟨_,rfl⟩
    · rcases others k b found' with ⟨rfl,_⟩ | ⟨_,rfl⟩
      · rfl
      · exact absurd rfl going'
    · exact absurd rfl going
  · rcases others m a found with ⟨_,rfl⟩ | ⟨_,rfl⟩
    · exact busy going
    · exact absurd rfl going
  · rcases others m a found with ⟨_,rfl⟩ | ⟨_,rfl⟩
    · exact ok
    · trivial

theorem inv_ends (status : Status)
    (completed : status = .completed → s.job.scanned = min s.job.limit library.files.length) : Inv library (s.ends n status) := by
  have limit : 0 < s.job.limit := inv.counted.limit (by
    rcases inv.busy n stage there alive with running | cancelled
    · rw [running]; exact Status.noConfusion
    · rw [cancelled]; exact Status.noConfusion)
  exact inv_goes inv there alive rfl ⟨inv.counted.visited,inv.counted.bound,completed,fun _ => limit⟩ trivial
    fun going => absurd rfl going

theorem inv_check (rules : Nat)
    {cursor : Option Cursor} (reaches : Reaches library cursor s.job.scanned) (within : s.job.scanned ≤ s.job.limit) :
    Inv library (s.check n rules cursor) := by
  unfold State.check
  split
  · next more =>
    split
    · exact inv_ends inv there alive _ nofun
    split
    · exact inv_ends inv there alive _ nofun
    · refine inv_goes inv there alive rfl inv.counted ⟨reaches,?_,?_⟩ fun _ => inv.busy n stage there alive
      · show 0 < min 20 _
        omega
      · show s.job.scanned + min 20 (s.job.limit - s.job.scanned) ≤ s.job.limit
        omega
  · next enough =>
    refine inv_ends inv there alive _ fun _ => ?_
    have bound := inv.counted.bound
    omega

theorem inv_scans (rules : Nat) {last : File} {job : Job} (same : Counts [] s.job job) {page : List (File × Evidence)}
    (files : page.map Prod.fst = (library.files.drop s.job.scanned).take page.length)
    (within : s.job.scanned + page.length ≤ s.job.limit)
    (reaches : Reaches library (some last.cursor) (s.job.scanned + page.length)) : Inv library (s.scans n rules last job page) := by
  obtain ⟨seen,split,more,_⟩ := scan_counts rules last page job
  have counts := counts_more same more
  rw [List.nil_append] at counts
  have busy : (scan rules last job page).1.status = .running ∨ (scan rules last job page).1.status = .cancelled := by
    rw [counts.status]
    exact inv.busy n stage there alive
  have total : page.length = seen.length + (leftOver (scan rules last job page).2).length := by
    rw [← List.length_append,← split,List.length_map]
  have enough : s.job.scanned + page.length ≤ library.files.length := by
    have lengths := congrArg List.length files
    rw [List.length_map,List.length_take,List.length_drop] at lengths
    have bound := inv.counted.bound
    omega
  have ahead : library.files.drop s.job.scanned = page.map Prod.fst ++ (library.files.drop s.job.scanned).drop page.length := by
    rw [files,List.take_append_drop]
  have counted : Counted library (scan rules last job page).1 := by
    refine ⟨?_,by rw [counts.scanned]; omega,fun completed => ?_,fun _ => ?_⟩
    · rw [counts.visited,counts.scanned,inv.counted.visited,List.take_add,ahead,split,List.append_assoc]
      rw [List.take_left']
      rfl
    · rcases busy with running | cancelled
      · rw [running] at completed
        cases completed
      · rw [cancelled] at completed
        cases completed
    · rw [counts.limit]
      exact inv.counted.limit (by
        rcases inv.busy n stage there alive with running | cancelled
        · rw [running]; exact Status.noConfusion
        · rw [cancelled]; exact Status.noConfusion)
  have left_files : leftOver (scan rules last job page).2 =
      (library.files.drop (scan rules last job page).1.scanned).take (leftOver (scan rules last job page).2).length := by
    rw [counts.scanned,← List.drop_drop,ahead,split,List.append_assoc,List.drop_left' rfl,List.take_left' rfl]
  unfold State.scans
  generalize scan rules last job page = result at *
  obtain ⟨job',left_page⟩ := result
  cases left_page with
  | none =>
    refine inv_goes inv there alive rfl counted ⟨?_,?_⟩ fun _ => busy
    · rw [counts.scanned]
      have whole : page.length = seen.length := total
      rw [← whole]
      exact reaches
    · rw [counts.scanned,counts.limit]
      omega
  | some pair =>
    obtain ⟨f,rest⟩ := pair
    have length : (leftOver (some (f,rest))).length = rest.length := List.length_map ..
    rw [length] at total left_files
    refine inv_goes inv there alive rfl counted ⟨left_files,?_,?_⟩ fun _ => busy
    · rw [counts.scanned,counts.limit]
      omega
    · rw [counts.scanned,Nat.add_assoc,← total]
      exact reaches

end

theorem reaches_start : Reaches library none 0 := rfl

theorem inv_advance (separated : Separated library.files) (inv : Inv library s) (there : s.loops[n]? = some stage)
    (reply : Option Reply) (some_rules : stage = .entering → ∀ r ∈ reply, 0 < r.rules ∨ library.files = []) :
    Inv library (s.advance library n stage reply) := by
  have ok := inv.stages n stage there
  have failed : stage ≠ .ended → Inv library (s.ends n .failed) := fun alive => inv_ends inv there alive _ nofun
  unfold State.advance
  cases stage with
  | entering => cases reply with
    | none => exact failed Stage.noConfusion
    | some reply =>
      dsimp only
      have none_scanned : s.job.scanned = 0 := ok
      split
      · next gone =>
        refine inv_ends inv there Stage.noConfusion _ fun _ => ?_
        rcases some_rules rfl reply rfl with some_rule | no_file
        · omega
        · rw [no_file,none_scanned,List.length_nil,Nat.min_zero]
      · refine inv_check inv there Stage.noConfusion _ ?_ (by omega)
        rw [none_scanned]
        exact reaches_start
  | fetching rules cursor batchSize => cases reply with
    | none => exact failed Stage.noConfusion
    | some reply =>
      obtain ⟨reaches,positive,within⟩ := ok
      have page : (remaining library.files cursor).take batchSize = (library.files.drop s.job.scanned).take batchSize := by
        rw [show remaining library.files cursor = _ from reaches]
      dsimp only
      split
      · next empty =>
        refine inv_ends inv there Stage.noConfusion _ fun _ => ?_
        rw [page,List.take_eq_nil_iff,List.drop_eq_nil_iff] at empty
        have bound := inv.counted.bound
        omega
      · next f rest found =>
        rw [page] at found
        have length : (f :: rest).length ≤ batchSize := by
          rw [← found]
          exact List.length_take_le _ _
        refine inv_goes inv there Stage.noConfusion rfl inv.counted ⟨List.cons_ne_nil f rest,?_,?_⟩ fun _ =>
          inv.busy n _ there Stage.noConfusion
        · show f :: rest = (library.files.drop s.job.scanned).take (f :: rest).length
          rw [← found,List.length_take,List.take_eq_take_min]
        · show s.job.scanned + (f :: rest).length ≤ s.job.limit
          omega
  | loading rules batch => cases reply with
    | none => exact failed Stage.noConfusion
    | some reply =>
      obtain ⟨nonempty,files,within⟩ := ok
      obtain rfl | ⟨front,last,rfl⟩ := List.eq_nil_or_concat' batch
      · exact absurd rfl nonempty
      have split : library.files = (library.files.take s.job.scanned ++ front) ++ last ::
          (library.files.drop s.job.scanned).drop (front ++ [last]).length := by
        have ahead := List.take_append_drop (front ++ [last]).length (library.files.drop s.job.scanned)
        rw [← files,List.append_assoc,List.singleton_append] at ahead
        rw [List.append_assoc,ahead,List.take_append_drop]
      dsimp only
      rw [List.getLast?_concat]
      refine inv_scans inv there Stage.noConfusion rules (counts_none s.job) ?_ ?_ ?_
      · rw [List.map_map,List.length_map]
        exact (List.map_id _).trans files
      · rw [List.length_map]
        exact within
      · unfold Reaches
        rw [remaining_after separated split,List.length_map,List.drop_drop]
  | creating rules last f rest => cases reply with
    | none => exact inv
    | some reply =>
      obtain ⟨files,within,reaches⟩ := ok
      refine inv_scans inv there Stage.noConfusion rules ?_ files within reaches
      split
      · exact counts_queue (counts_none s.job)
      · exact counts_skip (counts_none s.job)
  | sleeping rules cursor => cases reply with
    | none => exact inv
    | some reply => exact inv_check inv there Stage.noConfusion rules ok.1 ok.2
  | ended => exact inv

theorem inv_begins (idle : ∀ stage ∈ s.loops, stage = .ended) (loops : t.loops = s.loops ++ [Stage.entering])
    (counted : Counted library t.job) (fresh : t.job.scanned = 0) (running : t.job.status = .running) : Inv library t := by
  have others : ∀ (m : Nat) (a : Stage), t.loops[m]? = some a → a = .ended ∨ m = s.loops.length ∧ a = .entering := by
    intro m a found
    rw [loops] at found
    rcases at_of_append found with known | last
    · exact .inl (idle a (List.mem_of_getElem? known))
    · exact .inr last
  refine ⟨counted,fun m k a b found found' going going' => ?_,fun _ _ _ _ => .inl running,fun m a found => ?_⟩
  · rcases others m a found with rfl | ⟨rfl,_⟩
    · exact absurd rfl going
    · rcases others k b found' with rfl | ⟨rfl,_⟩
      · exact absurd rfl going'
      · rfl
  · rcases others m a found with rfl | ⟨_,rfl⟩
    · trivial
    · exact fresh

theorem limitOf_pos (limit : Option Int) : 0 < limitOf limit := by
  unfold limitOf BACKFILL_MAX_LIMIT
  dsimp only
  split <;> omega

theorem counted_begin (mode : Mode) (limit : Option Int) : Counted library (begin mode limit) :=
  ⟨rfl,Nat.zero_le _,nofun,fun _ => limitOf_pos limit⟩

theorem inv_step (separated : Separated library.files) (inv : Inv library s) {l : Label} (orderly : Orderly library s l) :
    Inv library (step library s l) := by
  have same : ∀ t : State, t.job = s.job → t.loops = s.loops → Inv library t := by
    intro t job loops
    refine ⟨?_,?_,?_,?_⟩
    · rw [job]
      exact inv.counted
    · rw [loops]
      exact inv.single
    · rw [job,loops]
      exact inv.busy
    · rw [job,loops]
      exact inv.stages
  unfold step
  cases l with
  | start mode limit =>
    dsimp only
    split
    · exact inv
    · exact same _ rfl rfl
  | feature n enabled =>
    dsimp only
    split
    · exact same _ rfl rfl
    · exact inv
  | rules n count =>
    dsimp only
    split
    · next mode limit known =>
      split
      · next some_rule =>
        exact inv_begins (orderly (.listing mode limit) known Start.noConfusion some_rule) rfl (counted_begin mode limit) rfl rfl
      · exact same _ rfl rfl
    · exact inv
  | pause =>
    dsimp only
    split
    · exact same _ rfl rfl
    · exact inv
  | resume =>
    dsimp only
    split
    · next paused =>
      have idle : ∀ stage ∈ s.loops, stage = .ended := by
        intro stage member
        obtain ⟨m,known⟩ := List.mem_iff_getElem?.mp member
        by_contra alive
        rcases inv.busy m stage known alive with running | cancelled
        · exact nomatch paused.symm.trans running
        · exact nomatch paused.symm.trans cancelled
      have limit : 0 < s.job.limit := inv.counted.limit (by rw [paused]; exact Status.noConfusion)
      exact inv_begins idle rfl ⟨inv.counted.visited,inv.counted.bound,nofun,fun _ => limit⟩ (orderly paused) rfl
    · exact inv
  | cancel =>
    dsimp only
    split
    · next active =>
      have limit : 0 < s.job.limit := inv.counted.limit (by
        rcases active with running | paused
        · rw [running]; exact Status.noConfusion
        · rw [paused]; exact Status.noConfusion)
      refine ⟨⟨inv.counted.visited,inv.counted.bound,nofun,fun _ => limit⟩,inv.single,fun _ _ _ _ => .inr rfl,fun m a found => ?_⟩
      have ok := inv.stages m a found
      cases a with
      | entering | fetching | loading | creating | sleeping | ended => exact ok
    · exact inv
  | go n reply =>
    dsimp only
    split
    · next stage known =>
      exact inv_advance separated inv known reply fun entering => orderly (by rw [known,entering])
    · exact inv

theorem inv_start : Inv library .start :=
  ⟨⟨rfl,Nat.zero_le _,nofun,fun idle => absurd rfl idle⟩,(nofun),(nofun),
    (nofun)⟩

theorem inv_reached (separated : Separated library.files) (reach : Reached library s) : Inv library s :=
  reachable_invariant inv_start (fun _ _ inv orderly => inv_step separated inv orderly) reach

def work (job : Job) : Stage → Nat
  | .entering | .sleeping _ _ => 5 * (job.limit - job.scanned) + 3
  | .fetching _ _ _ => 5 * (job.limit - job.scanned) + 2
  | .loading _ _ => 5 * (job.limit - job.scanned) + 1
  | .creating _ _ _ _ => 5 * (job.limit - job.scanned) + 4
  | .ended => 0

structure Works (s t : State) (n : Nat) (before : Nat) : Prop where
  pause : t.pauseRequested = s.pauseRequested
  cancel : t.cancelRequested = s.cancelRequested
  limit : t.job.limit = s.job.limit
  closer : t.job.status = .completed ∨ ∃ next, t.loops[n]? = some next ∧ next ≠ .ended ∧ work t.job next < before

theorem works_check (there : s.loops[n]? = some stage) (goes : s.pauseRequested = false ∧ s.cancelRequested = false) (rules : Nat)
    (cursor : Option Cursor) : Works s (s.check n rules cursor) n (5 * (s.job.limit - s.job.scanned) + 3) := by
  unfold State.check
  rw [goes.1,goes.2]
  split
  · exact ⟨rfl,rfl,rfl,.inr ⟨_,at_set there,Stage.noConfusion,Nat.lt_succ_self _⟩⟩
  · exact ⟨rfl,rfl,rfl,.inl rfl⟩

theorem works_scans (there : s.loops[n]? = some stage) (rules : Nat) (last : File) {job : Job} (same : Counts [] s.job job)
    {page : List (File × Evidence)} (within : s.job.scanned + page.length ≤ s.job.limit) {before : Nat}
    (less : 5 * (s.job.limit - s.job.scanned) + (if page = [] then 4 else 0) ≤ before) :
    Works s (s.scans n rules last job page) n before := by
  obtain ⟨seen,split,more,some_seen⟩ := scan_counts rules last page job
  have counts := counts_more same more
  have total : page.length = seen.length + (leftOver (scan rules last job page).2).length := by
    rw [← List.length_append,← split,List.length_map]
  have growth : page ≠ [] → 0 < seen.length := fun some_page => List.length_pos_iff.mpr (some_seen some_page)
  have whole : page = [] → (scan rules last job page).2 = none := by rintro rfl; rfl
  unfold State.scans
  generalize scan rules last job page = result at *
  obtain ⟨job',left_page⟩ := result
  have scanned : job'.scanned = s.job.scanned + seen.length := counts.scanned
  have limit : job'.limit = s.job.limit := counts.limit
  cases left_page with
  | none =>
    refine ⟨rfl,rfl,limit,.inr ⟨_,at_set there,Stage.noConfusion,?_⟩⟩
    show 5 * (job'.limit - job'.scanned) + 3 < before
    by_cases empty : page = []
    · rw [if_pos empty] at less
      omega
    · have grown := growth empty
      omega
  | some pair =>
    refine ⟨rfl,rfl,limit,.inr ⟨_,at_set there,Stage.noConfusion,?_⟩⟩
    show 5 * (job'.limit - job'.scanned) + 4 < before
    have some_page : page ≠ [] := fun empty => nomatch whole empty
    have grown := growth some_page
    omega

theorem works_advance (inv : Inv library s) (there : s.loops[n]? = some stage) (alive : stage ≠ .ended)
    (goes : s.pauseRequested = false ∧ s.cancelRequested = false) (reply : Reply) (some_rule : 0 < reply.rules) :
    Works s (s.advance library n stage (some reply)) n (work s.job stage) := by
  have ok := inv.stages n stage there
  unfold State.advance
  cases stage with
  | entering =>
    dsimp only
    rw [if_neg (Nat.pos_iff_ne_zero.mp some_rule)]
    exact works_check there goes reply.rules none
  | fetching rules cursor batchSize =>
    dsimp only
    split
    · exact ⟨rfl,rfl,rfl,.inl rfl⟩
    · exact ⟨rfl,rfl,rfl,.inr ⟨_,at_set there,Stage.noConfusion,Nat.lt_succ_self _⟩⟩
  | loading rules batch =>
    obtain ⟨nonempty,_,within⟩ := ok
    obtain rfl | ⟨front,last,rfl⟩ := List.eq_nil_or_concat' batch
    · exact absurd rfl nonempty
    dsimp only
    rw [List.getLast?_concat]
    refine works_scans there rules last (counts_none s.job) (by rw [List.length_map]; exact within) ?_
    rw [if_neg (by simp)]
    exact Nat.le_succ _
  | creating rules last f rest =>
    obtain ⟨_,within,_⟩ := ok
    refine works_scans there rules last ?_ within ?_
    · split
      · exact counts_queue (counts_none s.job)
      · exact counts_skip (counts_none s.job)
    · show _ ≤ 5 * (s.job.limit - s.job.scanned) + 4
      split <;> omega
  | sleeping rules cursor => exact works_check there goes rules cursor
  | ended => exact absurd rfl alive

def continued (library : Library) (n : Nat) (replies : Nat → Reply) (k : Nat) (s : State) : State :=
  ((List.range k).map fun i => Label.go n (some (replies i))).foldl (step library) s

theorem continued_succ (replies : Nat → Reply) (k : Nat) : continued library n replies (k + 1) s =
    continued library n (fun i => replies (i + 1)) k (step library s (.go n (some (replies 0)))) := by
  unfold continued
  rw [List.range_succ_eq_map,List.map_cons,List.map_map]
  rfl

theorem completes (separated : Separated library.files) : ∀ (bound : Nat) (s : State) (stage : Stage) (replies : Nat → Reply),
    Inv library s → s.loops[n]? = some stage → stage ≠ .ended → s.pauseRequested = false ∧ s.cancelRequested = false →
    (∀ i, 0 < (replies i).rules) → work s.job stage < bound →
    ∃ k, (continued library n replies k s).job.status = .completed ∧
      (continued library n replies k s).job.visited = library.files.take s.job.limit := by
  intro bound
  induction bound with
  | zero => exact fun _ _ _ _ _ _ _ _ below => absurd below (Nat.not_lt_zero _)
  | succ bound ih =>
    intro s stage replies inv there alive goes some_rules below
    have next : step library s (.go n (some (replies 0))) = s.advance library n stage (some (replies 0)) := by
      unfold step
      dsimp only
      rw [there]
    have kept : Inv library (step library s (.go n (some (replies 0)))) := inv_step separated inv fun _ r member => by
      cases member
      exact .inl (some_rules 0)
    obtain ⟨pause,cancel,limit,closer⟩ := works_advance inv there alive goes (replies 0) (some_rules 0)
    rw [← next] at pause cancel limit closer
    rcases closer with completed | ⟨stage',there',alive',less⟩
    · refine ⟨1,?_⟩
      refine ⟨completed,?_⟩
      show (step library s (.go n (some (replies 0)))).job.visited = _
      rw [kept.counted.visited,kept.counted.completed completed,limit,← List.take_eq_take_min]
    · obtain ⟨k,arrives⟩ := ih _ stage' (fun i => replies (i + 1)) kept there' alive'
        ⟨pause.trans goes.1,cancel.trans goes.2⟩ (fun i => some_rules (i + 1)) (by omega)
      rw [limit] at arrives
      exact ⟨k + 1,by rw [continued_succ]; exact arrives⟩

end

/-- One scan at most, of the first files, each of them once, and as many as asked for in the end. -/
structure Whole (library : Library) (s : State) : Prop where
  single : ∀ (m n : Nat) (a b : Stage), s.loops[m]? = some a → s.loops[n]? = some b → a ≠ .ended → b ≠ .ended → m = n
  onward : s.job.visited = library.files.take s.job.scanned
  distinct : s.job.visited.Nodup ∧ s.job.visited.length = s.job.scanned
  completed : s.job.status = .completed → s.job.scanned = min s.job.limit library.files.length
  completes : ∀ (n : Nat) (stage : Stage), s.loops[n]? = some stage → stage ≠ .ended →
    s.pauseRequested = false ∧ s.cancelRequested = false → ∀ replies : Nat → Reply, (∀ i, 0 < (replies i).rules) →
      ∃ k, (continued library n replies k s).job.status = .completed ∧
        (continued library n replies k s).job.visited = library.files.take s.job.limit

theorem files_nodup (library : Library) : library.files.Nodup :=
  library.sorted.imp fun before => fun same => before_irrefl _ (same ▸ before)

theorem backfill_whole (library : Library) (separated : Separated library.files) {s : State} (reach : Reached library s) :
    Whole library s := by
  have inv := inv_reached separated reach
  refine ⟨inv.single,inv.counted.visited,⟨?_,?_⟩,inv.counted.completed,fun n stage there alive goes replies some_rules =>
    completes separated _ s stage replies inv there alive goes some_rules (Nat.lt_succ_self _)⟩
  · rw [inv.counted.visited]
    exact (files_nodup library).sublist (List.take_sublist _ _)
  · rw [inv.counted.visited,List.length_take]
    exact Nat.min_eq_left inv.counted.bound

def shelf : Library := ⟨[⟨"c",3000⟩,⟨"b",2000⟩,⟨"a",2000⟩],by decide +kernel⟩

def answers : Reply := ⟨1,fun _ => ⟨0,0,true,false⟩,true⟩

def starting (n : Nat) (mode : Mode) (limit : Option Int) : List Label :=
  [.start mode limit,.feature n (some true),.rules n (some 1)]

def proceeding (n times : Nat) : List Label := List.replicate times (.go n (some answers))

def twoFiles : List Label := starting 0 .apply (some 2) ++ [Label.pause] ++ proceeding 0 1 ++ [Label.resume] ++ proceeding 1 6

theorem backfill_whole_twoFiles : Whole shelf (twoFiles.foldl (step shelf) .start) ∧
    (twoFiles.foldl (step shelf) .start).job.status = .completed ∧
    (twoFiles.foldl (step shelf) .start).job.visited = [⟨"c",3000⟩,⟨"b",2000⟩] :=
  ⟨backfill_whole shelf (by decide +kernel) (reachable_run .start twoFiles (by decide +kernel)),by decide +kernel⟩

def resumed : List Label := starting 0 .dryRun none ++ proceeding 0 3 ++ [Label.pause] ++ proceeding 0 1 ++ [Label.resume] ++ proceeding 1 3

theorem files_counted_again : ¬ ∀ (library : Library) (s : State),
    Reachable (step library) (fun _ _ => True) .start s → Whole library s := by
  intro always
  have whole := (always shelf _ (reachable_run .start resumed (by decide +kernel))).distinct.1
  revert whole
  decide +kernel

-- The scan of a cancelled job is still asleep when the next job starts, and goes on beside the new one.
example : ((starting 0 .dryRun none ++ proceeding 0 3 ++ [Label.cancel] ++ starting 1 .dryRun none ++ proceeding 0 1 ++ proceeding 1 1).foldl
    (step shelf) .start).loops = [.fetching 1 (some ⟨2000,"a"⟩) 20,.fetching 1 none 20] := by decide +kernel

-- The cursor of a page loses the microseconds of its last file, and a file of the same millisecond is not admitted.
example : ¬ Separated [⟨"b",2900⟩,⟨"a",2100⟩] := by decide +kernel

end Tgtc.BackfillRuns
