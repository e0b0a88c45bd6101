import RingServer.Proofs.Loop.Tenure

/-!
When the handler is called. Only the completion of a receive leads to a call, at most one, and the
connection that it is made for is open then and open afterwards (`Takes.open_of_call`): what could
end a connection comes in steps of its own.
-/

namespace RingServer.EventLoop

open Text (Bytes)

variable {β ρ σ : Type} [Backend β]

/-- No call is made. -/
def Silent (l : Watched β ρ σ) (_ : Option Fault) (m : Watched β ρ σ) : Prop :=
  m.handler = l.handler ∧ m.handlerState.2 = l.handlerState.2

/-- The table stays as it is. -/
def Steady (l : Watched β ρ σ) (_ : Option Fault) (m : Watched β ρ σ) : Prop :=
  m.connections = l.connections

section

omit [Backend β]

theorem silent_composable : Composable (Silent : StepRelation (Journal β) ρ (σ × List Call)) :=
  ⟨fun _ => ⟨rfl, rfl⟩, fun h h' => ⟨h'.1.trans h.1, h'.2.trans h.2⟩⟩

theorem steady_composable : Composable (Steady : StepRelation (Journal β) ρ (σ × List Call)) :=
  ⟨fun _ => rfl, fun h h' => h'.trans h⟩

theorem Sends.silent {fd : Descriptor} {l m : Watched β ρ σ} {x : Except Fault Unit}
    (h : Sends fd l x m) : Silent l (fault? x) m := by
  obtain ⟨-, ps, added, -⟩ := h.adds
  exact ⟨added.handler, by rw [added.calls, List.append_nil]⟩

theorem Sends.steady {fd : Descriptor} {l m : Watched β ρ σ} {x : Except Fault Unit}
    (h : Sends fd l x m) : Steady l (fault? x) m := h.adds.1

end

theorem silent_submit (tag : Tag) (operation : Operation) :
    Keeps (Silent : StepRelation (Journal β) ρ (σ × List Call)) (submit tag operation) := by
  intro l
  rw [Ends, exec_submit]
  exact ⟨rfl, rfl⟩

theorem steady_submit (tag : Tag) (operation : Operation) :
    Keeps (Steady : StepRelation (Journal β) ρ (σ × List Call)) (submit tag operation) := by
  intro l
  rw [Ends, exec_submit]
  rfl

theorem permits_silent [BufferSource ρ] :
    Permits (Silent : StepRelation (Journal β) ρ (σ × List Call)) where
  toComposable := silent_composable
  aside h ha := by
    rw [ha]
    exact h
  log level message l := (sends_writeLog level message l).silent
  armAccept fd := silent_submit _ _
  armReceive fd l _ := by
    unfold armReceive
    rw [Ends, exec_bind_ok (exec_get l)]
    exact silent_submit _ _ l
  close fd l := by
    rcases exec_closeConnection fd l with ⟨_, _, _, e⟩ | ⟨_, e⟩
    · rw [Ends, e]
      exact silent_submit _ _ _
    · rw [Ends, e]
      exact silent_composable.refl l
  shutdown fd l := by
    rcases exec_shutdownConnection fd l with ⟨_, _, _, e⟩ | ⟨_, e⟩
    · rw [Ends, e]
      exact silent_submit _ _ _
    · rw [Ends, e]
      exact silent_composable.refl l
  take _ _ _ := ⟨rfl, rfl⟩
  recycle _ _ _ _ h := h

theorem steady_writeAccess (message : String) :
    Keeps (Steady : StepRelation (Journal β) ρ (σ × List Call)) (writeAccess message) :=
  Keeps.writeAccess steady_composable
    (fun level message l => (sends_writeLog level message l).steady) message

theorem queueReply_quiet (fd : Descriptor) (reply : Reply) (l : Watched β ρ σ) :
    Silent l none (exec (queueReply fd reply) l).2 ∧
      Steady l none (exec (queueReply fd reply) l).2 := by
  cases reply with
  | nothing => exact ⟨⟨rfl, rfl⟩, rfl⟩
  | fixed bytes =>
    have silent : Keeps (Silent : StepRelation (Journal β) ρ (σ × List Call))
        (queueReply fd (.fixed bytes)) :=
      Keeps.bind silent_composable (silent_submit _ _) fun _ _ => ⟨rfl, rfl⟩
    have steady : Keeps (Steady : StepRelation (Journal β) ρ (σ × List Call))
        (queueReply fd (.fixed bytes)) :=
      Keeps.bind steady_composable (steady_submit _ _) fun _ _ => rfl
    exact ⟨silent l, steady l⟩
  | copied bytes =>
    have sent := sends_queueReply fd bytes l
    exact ⟨sent.silent, sent.steady⟩

/-! ## Messages -/

/-- A message is counted and then called, unless its log line is a fault. -/
theorem handle_cases {fd : Descriptor} {peer : Option SocketAddress} {id : UInt16} {payload : Bytes}
    {l m : Watched β ρ σ} {x : Except Fault Unit} (hl : Recording l)
    (he : exec (handle fd peer id payload) l = (x, m)) :
    (m.handlerState.2 = l.handlerState.2 ∧ ∃ message n e,
      Aside { l with connections := l.connections.modify fd (.count (.ofNat payload.length)) } n ∧
      exec (writeAccess message) n = (.error e, m)) ∨
    (m.handlerState.2 = l.handlerState.2 ++ [(fd, payload)] ∧
      m.connections = l.connections.modify fd (.count (.ofNat payload.length))) := by
  obtain ⟨message, n, ha, e⟩ := exec_handle fd peer id payload l
  rw [e] at he
  have same : n.handler = l.handler ∧ n.handlerState = l.handlerState := by
    rw [ha]
    exact ⟨rfl, rfl⟩
  have told := Keeps.writeAccess silent_composable
    (fun level message l => (sends_writeLog level message l).silent) message n
  rcases hw : exec (writeAccess message) n with ⟨e | a, k⟩
  · rw [exec_bind_error hw] at he
    cases he
    exact Or.inl ⟨(told.to_exec hw).2.trans (by rw [same.2]), message, n, e, ha, hw⟩
  · rw [exec_bind_ok hw, exec_answer] at he
    have silent := told.to_exec hw
    have steady := (steady_writeAccess message n).to_exec hw
    obtain ⟨⟨-, silent'⟩, steady'⟩ := queueReply_quiet fd
      (k.handler.respond k.handlerState fd payload).1
      { k with handlerState := (k.handler.respond k.handlerState fd payload).2 }
    rw [he] at silent' steady'
    obtain ⟨handler, hh⟩ := hl
    refine Or.inr ⟨?_, ?_⟩
    · have called : (k.handler.respond k.handlerState fd payload).2.2 =
          k.handlerState.2 ++ [(fd, payload)] := by
        rw [show k.handler = handler.recording from silent.1.trans (same.1.trans hh)]
        rfl
      rw [show m.handlerState.2 = _ from silent', called, silent.2, same.2]
    · rw [show m.connections = n.connections from steady'.trans steady, ha]

/-- One call was made, for a connection that is still open. -/
def Heard (fd : Descriptor) (l m : Watched β ρ σ) : Prop :=
  m.connections.isOpen fd = true ∧ ∃ payload, m.handlerState.2 = l.handlerState.2 ++ [(fd, payload)]

theorem handle_heard {fd : Descriptor} {peer : Option SocketAddress} {id : UInt16} {payload : Bytes}
    {l m : Watched β ρ σ} {x : Except Fault Unit} (hl : Recording l)
    (ho : l.connections.isOpen fd = true) (he : exec (handle fd peer id payload) l = (x, m)) :
    m.handlerState.2 = l.handlerState.2 ∨ Heard fd l m := by
  rcases handle_cases hl he with ⟨silent, -⟩ | ⟨called, table⟩
  · exact Or.inl silent
  · refine Or.inr ⟨?_, payload, called⟩
    rw [table]
    exact l.connections.isOpen_modify_count _ ho

variable [BufferSource ρ]

/-- After a call the message counts as delivered, unless there was a fault. -/
theorem deliver_heard {fd : Descriptor} {buffer : ReceivedBuffer} {l m : Watched β ρ σ}
    {x : Except Fault Received} (hl : Recording l) (he : exec (deliver fd buffer) l = (x, m)) :
    m.handlerState.2 = l.handlerState.2 ∨
      ((∀ outcome, x = .ok outcome → outcome = .delivered) ∧ Heard fd l m) := by
  unfold deliver at he
  rw [exec_bind_ok (exec_get l)] at he
  split at he
  · cases he
    exact Or.inl rfl
  next envelope _ =>
    split at he
    · cases he
      exact Or.inl rfl
    split at he
    · cases he
      exact Or.inl rfl
    split at he
    · cases he
      exact Or.inl rfl
    next connection hc =>
      rw [Option.filter_eq_some_iff] at hc
      have opened : l.connections.isOpen fd = true := by
        rw [ConnectionTable.isOpen, hc.1]
        exact hc.2
      rcases hh : exec (handle fd connection.peer buffer.id envelope.payload) l with ⟨e | a, k⟩
      · rw [exec_bind_error hh] at he
        cases he
        refine (handle_heard hl opened hh).imp_right fun heard => ⟨?_, heard⟩
        intro outcome e
        cases e
      · rw [exec_bind_ok hh] at he
        cases he
        refine (handle_heard hl opened hh).imp_right fun heard => ⟨?_, heard⟩
        rintro outcome ⟨⟩
        rfl

theorem receiveOutcome_heard {fd : Descriptor} {result : Int32} {buffer : Option ReceivedBuffer}
    {l m : Watched β ρ σ} {x : Except Fault Received} (hl : Recording l)
    (he : exec (receiveOutcome fd result buffer) l = (x, m)) :
    m.handlerState.2 = l.handlerState.2 ∨
      ((∀ outcome, x = .ok outcome → outcome = .delivered) ∧ Heard fd l m) := by
  unfold receiveOutcome at he
  split at he
  · cases he
    exact Or.inl rfl
  split at he
  · cases he
    exact Or.inl rfl
  split at he
  · cases he
    exact Or.inl rfl
  rw [exec_bind_ok (exec_get l)] at he
  split at he
  · cases he
    exact Or.inl rfl
  split at he
  · cases he
    exact Or.inl rfl
  · exact deliver_heard hl he

/-- A connection that is open when its message has been delivered stays open. -/
theorem concludeReceive_steady {fd : Descriptor} {armed : Bool} {l : Watched β ρ σ}
    (ho : l.connections.isOpen fd = true) :
    Ends Steady (concludeReceive fd armed .delivered) l := by
  cases armed with
  | true => exact steady_composable.refl l
  | false =>
    obtain ⟨m, ha, e⟩ := exec_rearmOrClose_of_isOpen ho
    have same : m.connections = l.connections := by rw [ha]
    have rearmed : Steady m none (exec (armReceive fd) m).2 := by
      unfold armReceive
      rw [exec_bind_ok (exec_get m)]
      exact steady_submit _ _ m
    show Steady l _ (exec (rearmOrClose fd) l).2
    rw [e]
    exact Eq.trans rearmed same

theorem onReceive_heard {fd : Descriptor} {c : Completion} {l m : Watched β ρ σ}
    {x : Except Fault Unit} (hl : Recording l) (he : exec (onReceive fd c) l = (x, m)) :
    m.handlerState.2 = l.handlerState.2 ∨ Heard fd l m := by
  have taken := keeps_takeBuffer permits_silent c l
  rw [exec_onReceive] at he
  rcases ht : exec (takeBuffer c) l with ⟨e | buffer, k⟩
  · rw [ht] at he
    cases he
    exact Or.inl (taken.to_exec ht).2
  have silent : Silent l none k := taken.to_exec ht
  have hk : Recording k := by
    obtain ⟨handler, hh⟩ := hl
    exact ⟨handler, silent.1.trans hh⟩
  -- Giving the buffer back changes neither the table nor the calls.
  have back : ∀ n : Watched β ρ σ, (returned buffer n).connections = n.connections ∧
      (returned buffer n).handlerState = n.handlerState := by
    intro n
    cases buffer <;> exact ⟨rfl, rfl⟩
  rw [ht] at he
  simp only [] at he
  rcases ho : exec (receiveOutcome fd c.result buffer) k with ⟨e | outcome, n⟩
  · rw [ho] at he
    cases he
    obtain ⟨hc, hs⟩ := back n
    rw [Heard, hc, hs, ← silent.2]
    exact (receiveOutcome_heard hk ho).imp_right fun h => h.2
  · rw [ho] at he
    simp only [] at he
    obtain ⟨hc, hs⟩ := back n
    have quiet := (keeps_concludeReceive permits_silent fd c.hasMore outcome (returned buffer n))
    have same : m.handlerState.2 = n.handlerState.2 := by
      rw [(quiet.to_exec he).2, hs]
    rcases receiveOutcome_heard hk ho with none_heard | ⟨delivered, heard⟩
    · exact Or.inl (same.trans (none_heard.trans silent.2))
    · cases delivered outcome rfl
      have opened : (returned buffer n).connections.isOpen fd = true := by
        rw [hc]
        exact heard.1
      have steady := (concludeReceive_steady opened).to_exec he
      refine Or.inr ⟨?_, ?_⟩
      · rw [show m.connections = _ from steady]
        exact opened
      · rw [same, ← silent.2]
        exact heard.2

theorem silent_listen (fd : Descriptor) :
    Keeps (Silent : StepRelation (Journal β) ρ (σ × List Call)) (listen fd) :=
  Keeps.listen silent_composable (fun _ => ⟨rfl, rfl⟩) (permits_silent.armAccept fd)
    (fun _ _ => ⟨rfl, rfl⟩) fun _ _ => ⟨rfl, rfl⟩

/-- The completion of a receive leads to one call at most, anything else to none. -/
theorem dispatch_heard {c : Completion} {l m : Watched β ρ σ} {x : Except Fault Unit}
    (hl : Recording l) (he : exec (dispatch c) l = (x, m)) :
    m.handlerState.2 = l.handlerState.2 ∨ Heard c.tag.descriptor.toInt32 l m := by
  by_cases hw : c.tag.opcode? = some .writeFixed
  · obtain ⟨pool, hi⟩ := idle_released hw he
    exact Or.inl (congrArg Prod.snd hi.handlerState)
  by_cases hr : c.tag.opcode? = some .receive
  · have receives : exec (dispatch c) l = exec (onReceive c.tag.descriptor.toInt32 c) l := by
      unfold dispatch
      rw [hr]
    rw [receives] at he
    exact onReceive_heard hl he
  · have silent := dispatch_permits permits_silent c l hw hr
    rw [he, prepared_eq] at silent
    exact Or.inl silent.2

/-- A step that calls the handler for a descriptor leaves its connection open. -/
theorem Takes.open_of_call {d : Descriptor} {l m : Watched β ρ σ} {o : Occurrence}
    (ht : Takes l o m) (hl : Recording l) (hm : messages d o.calls ≠ []) :
    m.connections.isOpen d = true := by
  have unheard : ∀ (c : Option Completion) (n : Watched β ρ σ),
      n.handlerState.2 = l.handlerState.2 → messages d (seen c l n).calls = [] := by
    intro c n e
    rw [seen, e, List.drop_length]
    rfl
  cases ht with
  | listen fd => exact absurd (unheard none _ (silent_listen fd l).2) hm
  | log level message =>
    exact absurd (unheard none _ (permits_silent.log level message l).2) hm
  | dispatch c =>
    rcases he : exec (EventLoop.dispatch c) l with ⟨x, n⟩
    rw [he] at hm
    rcases dispatch_heard hl he with silent | ⟨opened, payload, heard⟩
    · exact absurd (unheard (some c) _ silent) hm
    · by_cases e : c.tag.descriptor.toInt32 = d
      · rw [← e]
        exact opened
      · refine absurd ?_ hm
        rw [seen, heard, List.drop_left]
        simp [messages, e]

end RingServer.EventLoop
