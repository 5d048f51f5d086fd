import Tgtc.ChunkedUpload
import Tgtc.Maps

/-!
The chunks of an upload. Every chunk that is missing is with one worker at most, is sent as often as the
retries of that worker say, and is given up only by a worker that fails or when the upload is cancelled.
-/
namespace Tgtc.ChunkWork
open ChunkedUpload
open List (append_assoc mem_append mem_cons mem_cons_of_mem mem_cons_self mem_singleton)
universe u v

section
variable {Byte : Type v}

def sent (i : Nat) (log : List (Event Byte)) : Nat :=
  log.countP fun | .chunk index _ => index = i | _ => false

def MOST : Nat := MAX_RETRIES + MAX_DISK_BUDGET_RETRIES + 1

def indexOf : Stage → Option Nat
  | .waiting index _ _ _ | .sending index _ _ _ | .backing index _ _ _ => some index
  | _ => none

def Retried (total : Nat) (log : List (Event Byte)) : Stage → Prop
  | .waiting index retryCount budgetRetryCount _ | .backing index retryCount budgetRetryCount _ =>
    index < total ∧ sent index log = retryCount + budgetRetryCount ∧ retryCount ≤ MAX_RETRIES ∧ budgetRetryCount ≤ MAX_DISK_BUDGET_RETRIES
  | .sending index retryCount budgetRetryCount _ =>
    index < total ∧ sent index log = retryCount + budgetRetryCount + 1 ∧ retryCount ≤ MAX_RETRIES ∧
      budgetRetryCount ≤ MAX_DISK_BUDGET_RETRIES
  | _ => True

variable {Signal : Type u}

/-- The server has said that it has the chunk, or has acknowledged its bytes. -/
def Done (cfg : Config Signal Byte) (log : List (Event Byte)) (i : Nat) : Prop :=
  (∃ uploaded,Event.reported uploaded ∈ log ∧ i ∈ uploaded) ∨ Event.acknowledged i (cfg.blob i) ∈ log

def Exact (cfg : Config Signal Byte) (log : List (Event Byte)) : Prop :=
  ∀ i body,Event.chunk i body ∈ log ∨ Event.acknowledged i body ∈ log → i < cfg.totalChunks ∧ body = cfg.blob i

structure Work (cfg : Config Signal Byte) (gone : Prop) (pending : List Nat) (nextIdx : Nat) (failed : Bool) (workers : List Stage)
    (log : List (Event Byte)) : Prop where
  known : ∀ i ∈ pending,i < cfg.totalChunks
  separate : (workers.filterMap indexOf ++ pending.drop nextIdx).Nodup
  fresh : ∀ i ∈ pending.drop nextIdx,sent i log = 0
  retried : ∀ stage ∈ workers,Retried cfg.totalChunks log stage
  most : ∀ i,sent i log ≤ MOST
  exact : Exact cfg log
  covered : ¬gone → failed = false → ∀ i < cfg.totalChunks,Done cfg log i ∨ i ∈ pending.drop nextIdx ∨ i ∈ workers.filterMap indexOf
  returned : .returned ∈ workers → failed = true ∨ pending.length ≤ nextIdx
  rejected : failed = true ↔ ∃ err,.rejected err ∈ workers

theorem sent_append (i : Nat) (log : List (Event Byte)) (event : Event Byte) :
    sent i (log ++ [event]) = sent i log + sent i [event] := List.countP_append

theorem sent_chunk (i index : Nat) (body : List Byte) : sent i [.chunk index body] = if index = i then 1 else 0 := by
  by_cases same : index = i <;> simp [sent]

theorem Retried.append {total : Nat} {log : List (Event Byte)} {stage : Stage} {event : Event Byte} (retried : Retried total log stage)
    (other : ∀ i ∈ indexOf stage,sent i [event] = 0) : Retried total (log ++ [event]) stage := by
  cases stage with
  | waiting index | sending index | backing index => simpa [Retried,sent_append,other index rfl] using retried
  | _ => trivial

theorem done_append {cfg : Config Signal Byte} {log : List (Event Byte)} {i : Nat} (done : Done cfg log i) (event : Event Byte) :
    Done cfg (log ++ [event]) i := by
  rcases done with ⟨uploaded,reported,member⟩ | acknowledged
  · exact .inl ⟨uploaded,List.mem_append_left _ reported,member⟩
  · exact .inr (List.mem_append_left _ acknowledged)

variable {cfg : Config Signal Byte} {gone gone' : Prop} {pending : List Nat} {nextIdx : Nat} {failed : Bool} {workers workers' rest : List Stage}
  {old new : Stage} {log : List (Event Byte)}

section
variable (work : Work cfg gone pending nextIdx failed workers log)
include work

theorem Work.perm (same : workers.Perm workers') : Work cfg gone pending nextIdx failed workers' log where
  known := work.known
  separate := ((same.filterMap indexOf).append_right _).nodup_iff.mp work.separate
  fresh := work.fresh
  retried stage member := work.retried stage (same.mem_iff.mpr member)
  most := work.most
  exact := work.exact
  covered here fine i within := (work.covered here fine i within).imp_right (Or.imp_right (same.filterMap indexOf).mem_iff.mp)
  returned member := work.returned (same.mem_iff.mpr member)
  rejected := work.rejected.trans (exists_congr fun _ => same.mem_iff)

theorem Work.later (still : gone → gone') : Work cfg gone' pending nextIdx failed workers log :=
  { work with covered := fun here => work.covered fun earlier => here (still earlier) }

end

theorem filterMap_cons_perm (stage : Stage) (stages : List Stage) :
    (stage :: stages).filterMap indexOf = (indexOf stage).toList ++ stages.filterMap indexOf := by
  rw [List.filterMap_cons]
  cases indexOf stage <;> rfl

theorem Work.exchange (work : Work cfg gone pending nextIdx failed (old :: rest) log)
    (index : indexOf new = indexOf old ∨ indexOf new = none ∧ ∀ i ∈ indexOf old,gone ∨ Done cfg log i)
    (retried : Retried cfg.totalChunks log new) (returned : new ≠ .returned) (rejected : ∀ err,new ≠ .rejected err)
    (running : ∀ err,old ≠ .rejected err) : Work cfg gone pending nextIdx failed (new :: rest) log where
  known := work.known
  separate := by
    have before := work.separate
    rw [filterMap_cons_perm,append_assoc] at before ⊢
    rcases index with same | ⟨none,_⟩
    · rw [same]; exact before
    · rw [none]; exact before.sublist (List.sublist_append_right _ _)
  fresh := work.fresh
  retried stage member := by
    rcases mem_cons.mp member with rfl | others
    · exact retried
    · exact work.retried stage (mem_cons_of_mem _ others)
  most := work.most
  exact := work.exact
  covered here fine i within := by
    rcases work.covered here fine i within with done | later | works
    · exact .inl done
    · exact .inr (.inl later)
    · rw [filterMap_cons_perm,mem_append,Option.mem_toList] at works ⊢
      rcases works with own | others
      · rcases index with same | ⟨_,left⟩
        · exact .inr (.inr (.inl (same ▸ own)))
        · rcases left i own with given | done
          · exact absurd given here
          · exact .inl done
      · exact .inr (.inr (.inr others))
  returned member := by
    rcases mem_cons.mp member with same | others
    · exact absurd same.symm returned
    · exact work.returned (mem_cons_of_mem _ others)
  rejected := by
    rw [work.rejected]
    constructor
    · rintro ⟨err,member⟩
      rcases mem_cons.mp member with same | others
      · exact absurd same.symm (running err)
      · exact ⟨err,mem_cons_of_mem _ others⟩
    · rintro ⟨err,member⟩
      rcases mem_cons.mp member with same | others
      · exact absurd same.symm (rejected err)
      · exact ⟨err,mem_cons_of_mem _ others⟩

theorem Work.next (work : Work cfg gone pending nextIdx failed (old :: rest) log) (running : old.over = false)
    (left : ∀ i ∈ indexOf old,gone ∨ Done cfg log i) : Work cfg gone pending nextIdx failed (.next :: rest) log :=
  work.exchange (.inr ⟨rfl,left⟩) trivial nofun nofun fun err same => by rw [same] at running; cases running

variable {index retryCount budgetRetryCount call : Nat}

theorem Work.back {retryCount' budgetRetryCount' : Nat} {budgetBusy : Bool}
    (work : Work cfg gone pending nextIdx failed (.sending index retryCount budgetRetryCount call :: rest) log)
    (retried : Retried cfg.totalChunks log (.backing index retryCount' budgetRetryCount' budgetBusy)) :
    Work cfg gone pending nextIdx failed (.backing index retryCount' budgetRetryCount' budgetBusy :: rest) log :=
  work.exchange (.inl rfl) retried nofun nofun nofun

theorem Work.retry {budgetBusy : Bool}
    (work : Work cfg gone pending nextIdx failed (.backing index retryCount budgetRetryCount budgetBusy :: rest) log) :
    Work cfg gone pending nextIdx failed (.waiting index retryCount budgetRetryCount call :: rest) log :=
  have retried : Retried cfg.totalChunks log (.backing index retryCount budgetRetryCount budgetBusy) := work.retried _ mem_cons_self
  work.exchange (.inl rfl) retried nofun nofun nofun

theorem Work.fail (work : Work cfg gone pending nextIdx failed (old :: rest) log) (err : UploadErrors.Thrown) :
    Work cfg gone pending nextIdx true (.rejected err :: rest) log where
  known := work.known
  separate := by
    have before := work.separate
    rw [filterMap_cons_perm,append_assoc] at before ⊢
    exact before.sublist (List.sublist_append_right _ _)
  fresh := work.fresh
  retried stage member := by
    rcases mem_cons.mp member with rfl | others
    · trivial
    · exact work.retried stage (mem_cons_of_mem _ others)
  most := work.most
  exact := work.exact
  covered _ fine := by cases fine
  returned _ := .inl rfl
  rejected := ⟨fun _ => ⟨err,by simp⟩,fun _ => rfl⟩

theorem Work.finish (work : Work cfg gone pending nextIdx failed (.next :: rest) log) {nextIdx' : Nat} (later : nextIdx ≤ nextIdx')
    (past : failed = true ∨ pending.length ≤ nextIdx) : Work cfg gone pending nextIdx' failed (.returned :: rest) log where
  known := work.known
  separate := work.separate.sublist (List.Sublist.append_left (List.drop_sublist_drop_left pending later) _)
  fresh i member := work.fresh i ((List.drop_sublist_drop_left pending later).subset member)
  retried stage member := by
    rcases mem_cons.mp member with rfl | others
    · trivial
    · exact work.retried stage (mem_cons_of_mem _ others)
  most := work.most
  exact := work.exact
  covered here fine i within := by
    rcases work.covered here fine i within with done | left | works
    · exact .inl done
    · rcases past with failed | none
      · rw [failed] at fine; cases fine
      · rw [List.drop_eq_nil_of_le none] at left; cases left
    · exact .inr (.inr works)
  returned _ := past.imp_right fun none => none.trans later
  rejected := by
    rw [work.rejected]
    exact exists_congr fun err => by simp

theorem Work.take (work : Work cfg gone pending nextIdx failed (.next :: rest) log) (taken : pending[nextIdx]? = some index)
    (stage : (∃ call,new = .waiting index 0 0 call) ∨ gone ∧ new = .next) :
    Work cfg gone pending (nextIdx + 1) failed (new :: rest) log := by
  obtain ⟨within,value⟩ := List.getElem?_eq_some_iff.mp taken
  have drop : pending.drop nextIdx = index :: pending.drop (nextIdx + 1) := by rw [List.drop_eq_getElem_cons within,value]
  have member : index ∈ pending := value ▸ List.getElem_mem within
  have before := work.separate
  rw [drop] at before
  have fresh : ∀ i ∈ pending.drop (nextIdx + 1),sent i log = 0 := fun i member => work.fresh i (drop ▸ mem_cons_of_mem _ member)
  have returned : .returned ∈ rest → failed = true ∨ pending.length ≤ nextIdx + 1 := fun member =>
    (work.returned (mem_cons_of_mem _ member)).imp_right Nat.le_succ_of_le
  rcases stage with ⟨call,rfl⟩ | ⟨gone,rfl⟩
  · refine ⟨work.known,?_,fresh,?_,work.most,work.exact,?_,?_,?_⟩
    · exact List.perm_middle.nodup_iff.mp before
    · intro stage works
      rcases mem_cons.mp works with rfl | others
      · exact ⟨work.known index member,work.fresh index (drop ▸ mem_cons_self),Nat.zero_le _,Nat.zero_le _⟩
      · exact work.retried stage (mem_cons_of_mem _ others)
    · intro here fine i within
      rcases work.covered here fine i within with done | later | works
      · exact .inl done
      · rw [drop] at later
        rcases mem_cons.mp later with rfl | later
        · exact .inr (.inr (by simp [indexOf]))
        · exact .inr (.inl later)
      · rw [filterMap_cons_perm] at works ⊢
        exact .inr (.inr (List.mem_append_right _ (by simpa [indexOf] using works)))
    · intro works
      exact returned (by simpa using works)
    · rw [work.rejected]
      exact exists_congr fun err => by simp
  · refine ⟨work.known,?_,fresh,work.retried,work.most,work.exact,fun here => absurd gone here,?_,work.rejected⟩
    · exact before.sublist (List.Sublist.append_left (List.sublist_cons_self _ _) _)
    · intro works
      exact returned (by simpa using works)

theorem Work.post (work : Work cfg gone pending nextIdx failed (old :: rest) log)
    (waits : old = .waiting index retryCount budgetRetryCount call) :
    Work cfg gone pending nextIdx failed (.sending index retryCount budgetRetryCount call :: rest) (log ++ [.chunk index (cfg.blob index)]) := by
  subst waits
  obtain ⟨within,sent',retries,budget⟩ := work.retried _ mem_cons_self
  have separate := work.separate
  have fresh : index ∉ rest.filterMap indexOf ++ pending.drop nextIdx := (List.nodup_cons.mp separate).1
  have other : ∀ i,i ≠ index → sent i [Event.chunk index (cfg.blob index)] = 0 := by
    intro i differs
    rw [sent_chunk,if_neg (Ne.symm differs)]
  refine ⟨work.known,by exact separate,?_,?_,?_,?_,?_,?_,?_⟩
  · intro i member
    have differs : i ≠ index := fun same => fresh (List.mem_append_right _ (same ▸ member))
    rw [sent_append,other i differs,work.fresh i member]
  · intro stage member
    rcases mem_cons.mp member with rfl | others
    · refine ⟨within,?_,retries,budget⟩
      rw [sent_append,sent_chunk,if_pos rfl,sent']
    · apply (work.retried stage (mem_cons_of_mem _ others)).append
      intro i has
      exact other i fun same => fresh (List.mem_append_left _ (List.mem_filterMap.mpr ⟨stage,others,same ▸ has⟩))
  · intro i
    rw [sent_append,sent_chunk]
    by_cases same : index = i
    · subst same
      rw [if_pos rfl,MOST]
      omega
    · rw [if_neg same]
      exact work.most i
  · intro i body member
    simp only [mem_append,mem_singleton,reduceCtorEq,or_false] at member
    rcases member with (earlier | now) | earlier
    · exact work.exact i body (.inl earlier)
    · cases now; exact ⟨within,rfl⟩
    · exact work.exact i body (.inr earlier)
  · exact fun here fine i within => (work.covered here fine i within).imp_left fun done => done_append done _
  · exact fun member => work.returned (by simpa using member)
  · rw [work.rejected]
    exact exists_congr fun err => by simp

theorem Work.acknowledge (work : Work cfg gone pending nextIdx failed workers log) (within : index < cfg.totalChunks) :
    Work cfg gone pending nextIdx failed workers (log ++ [.acknowledged index (cfg.blob index)]) := by
  have none : ∀ i,sent i [Event.acknowledged index (cfg.blob index)] = 0 := fun i => rfl
  refine { work with fresh := ?_, retried := ?_, most := ?_, exact := ?_, covered := ?_ }
  · intro i member
    rw [sent_append,none,work.fresh i member]
  · exact fun stage member => (work.retried stage member).append fun i _ => none i
  · intro i
    rw [sent_append]
    exact work.most i
  · intro i body member
    simp only [mem_append,mem_singleton,reduceCtorEq,or_false] at member
    rcases member with earlier | earlier | now
    · exact work.exact i body (.inl earlier)
    · exact work.exact i body (.inr earlier)
    · cases now; exact ⟨within,rfl⟩
  · exact fun here fine i within => (work.covered here fine i within).imp_left fun done => done_append done _

end
end Tgtc.ChunkWork
