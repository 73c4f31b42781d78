import DiscCatalog.Channel.NamedPipe
import DiscCatalog.Proofs.Host.Handles

namespace DiscCatalog

open Host

variable {h h' h'' : Host} {e : Errno} {f : ChannelFault} {i j : Nat} {b : UInt8} {bs frame : List UInt8} {x : Handle}
  {m : Message} {origin : UInt32} {settings : PipeSettings}

namespace PipeServer

variable {s s' : PipeServer} {outcome : Except ChannelFault Message}

theorem openOn_unmade (refused : replacePipe settings.serverPath settings.permissions h = (.error f, h')) :
    openOn settings h = (.error f, h') := by
  simp only [openOn, refused]

theorem openOn_unopened (made : replacePipe settings.serverPath settings.permissions h = (.ok (), h'))
    (failed : h'.openPath settings.serverPath .read false = (.error e, h'')) :
    openOn settings h = (.error (.ofPipe "open" settings.serverPath e), h'') := by
  simp only [openOn, made, failed]

theorem openOn_opened (made : replacePipe settings.serverPath settings.permissions h = (.ok (), h'))
    (opened : h'.openPath settings.serverPath .read false = (.ok h'.handles.length, h'.adding (some x))) :
    openOn settings h = (.ok { settings, path := settings.serverPath, inbound := some h'.handles.length },
      h'.adding (some { x with blocking := true })) := by
  simp only [openOn, made, opened, makeBlocking_adding]

theorem readFresh_waits (waits : h.read i Frame.size = (.error .interrupted, h')) :
    readFresh i s h = (none, { s with inbound := some i, reopening := false }, h') := by
  simp only [readFresh, waits]
  rfl

theorem readFresh_ended (ended : h.read i Frame.size = (.ok [], h')) :
    readFresh i s h = (none, { s with inbound := some i, reopening := true }, h') := by
  simp only [readFresh, ended]

theorem readFresh_given (given : h.read i Frame.size = (.ok (b :: bs), h')) :
    readFresh i s h = (some (messageOfRead (b :: bs)), { s with inbound := some i, reopening := false }, h') := by
  simp only [readFresh, given]

theorem readFresh_snd (i : Nat) (s : PipeServer) (h : Host) :
    ∃ reopening, (readFresh i s h).2 = ({ s with inbound := some i, reopening }, (h.read i Frame.size).2) := by
  unfold readFresh
  split <;> next read => rw [read]; exact ⟨_, rfl⟩

theorem reopen_failed (failed : h.openPath s.path .read false = (.error e, h')) :
    reopen s h = (some (.error (.ofPipe "open" s.path e)), { s with inbound := none }, h') := by
  simp only [reopen, failed]

theorem reopen_opened (opened : h.openPath s.path .read false = (.ok h.handles.length, h.adding (some x))) :
    reopen s h =
      readFresh h.handles.length { s with inbound := none } (h.adding (some { x with blocking := true })) := by
  simp only [reopen, opened, makeBlocking_adding]

theorem poll_closed (closed : s.closed = true) : poll (s, h) = (some (.error .closed), s, h) := by
  simp only [poll, closed, ↓reduceIte]

section Polling

variable (isOpen : s.closed = false)

include isOpen

theorem poll_unopened (idle : s.inbound = none) : poll (s, h) = reopen s h := by
  simp only [poll, isOpen, Bool.false_eq_true, ↓reduceIte, idle]

variable (held : s.inbound = some i)

include held

theorem poll_reopening (again : s.reopening = true) : poll (s, h) = readFresh i s h := by
  simp only [poll, isOpen, Bool.false_eq_true, ↓reduceIte, held, again]

variable (fresh : s.reopening = false)

include fresh

theorem poll_waits (waits : h.read i Frame.size = (.error .interrupted, h')) : poll (s, h) = (none, s, h') := by
  simp only [poll, isOpen, Bool.false_eq_true, ↓reduceIte, held, fresh, waits]
  rfl

theorem poll_snd {given : Except Errno (List UInt8)} (read : h.read i Frame.size = (given, h')) (some : given ≠ .ok []) :
    (poll (s, h)).2 = (s, h') := by
  unfold poll
  simp only [isOpen, Bool.false_eq_true, ↓reduceIte, held, fresh, read]
  split
  · next same => cases same; rfl
  · next same => cases same; rfl
  · next same => cases same; exact absurd rfl some
  · next same => cases same; rfl

theorem poll_ended (ended : h.read i Frame.size = (.ok [], h')) :
    poll (s, h) = reopen { s with inbound := none } (h'.close i) := by
  simp only [poll, isOpen, Bool.false_eq_true, ↓reduceIte, held, fresh, ended]

theorem poll_given (given : h.read i Frame.size = (.ok (b :: bs), h')) :
    poll (s, h) = (some (messageOfRead (b :: bs)), s, h') := by
  simp only [poll, isOpen, Bool.false_eq_true, ↓reduceIte, held, fresh, given]

end Polling

theorem abandon_stopped (stopped : s.reopening = false) : abandon (s, h) = (s, h) := by
  simp only [abandon, stopped, Bool.false_eq_true, ↓reduceIte]

theorem abandon_waiting (waits : s.reopening = true) :
    abandon (s, h) = ({ s with inbound := none, reopening := false }, closeHeld s.inbound h) := by
  simp only [abandon, waits, ↓reduceIte]

theorem receive_done (polled : poll (s, h) = (some outcome, s', h')) : receive (s, h) = (outcome, s', h') := by
  simp only [receive, polled]

theorem receive_waited (polled : poll (s, h) = (none, s', h')) :
    receive (s, h) = (.error .interrupted, abandon (s', h')) := by
  simp only [receive, polled]

theorem replyBegin_closed (closed : s.closed = true) : replyBegin origin (s, h) = (.error .closed, s, h) := by
  simp only [replyBegin, closed, ↓reduceIte]

theorem replyBegin_failed (isOpen : s.closed = false)
    (failed : h.openPath (s.settings.clientPath origin) .write true = (.error e, h')) :
    replyBegin origin (s, h) = (.error (.ofPipe "open" (s.settings.clientPath origin) e), s, h') := by
  simp only [replyBegin, isOpen, Bool.false_eq_true, ↓reduceIte, failed]

theorem replyBegin_opened (isOpen : s.closed = false)
    (opened : h.openPath (s.settings.clientPath origin) .write true = (.ok i, h')) :
    replyBegin origin (s, h) = (.ok (), { s with outbound := some i }, closeHeld s.outbound h') := by
  simp only [replyBegin, isOpen, Bool.false_eq_true, ↓reduceIte, opened]

theorem replySend_unbegun (unbegun : s.outbound = none) :
    replySend m (s, h) = (.error .noReplyChannel, s, h) := by
  simp only [replySend, unbegun]

theorem replySend_misfit {misfit : FrameFault} (begun : s.outbound = some i) (unencoded : m.encode = .error misfit) :
    replySend m (s, h) = (.error (.frame misfit), s, h) := by
  simp only [replySend, begun, unencoded]

theorem replySend_written (begun : s.outbound = some i) (encoded : m.encode = .ok frame) :
    replySend m (s, h) = ((writeFrame i frame h).1, s, (writeFrame i frame h).2) := by
  simp only [replySend, begun, encoded]

theorem close_closed (closed : s.closed = true) : close (s, h) = (s, h) := by
  simp only [close, closed, ↓reduceIte]

theorem close_open (isOpen : s.closed = false) :
    close (s, h) = ({ s with closed := true, inbound := none, outbound := none, reopening := false },
      ((closeHeld s.outbound (closeHeld s.inbound h)).unlink s.path).2) := by
  simp only [close, isOpen, Bool.false_eq_true, ↓reduceIte]

end PipeServer

namespace PipeClient

variable {c : PipeClient}

theorem connect_failed (failed : h.openPath settings.serverPath .write false = (.error e, h')) :
    connect settings h = (.error (if e = .noEntry ∨ e = .noDevice then .serverNotRunning
      else .ofPipe "open" settings.serverPath e), h') := by
  simp only [connect, failed]

theorem connect_opened
    (opened : h.openPath settings.serverPath .write false = (.ok h.handles.length, h.adding (some x))) :
    connect settings h = (.ok h.handles.length, h.adding (some { x with blocking := true })) := by
  simp only [connect, opened, makeBlocking_adding]

theorem openOn_unconnected (refused : connect settings h = (.error f, h')) :
    openOn settings origin h = (.error f, h') := by
  simp only [openOn, refused]

theorem openOn_unmade (connected : connect settings h = (.ok i, h'))
    (refused : replacePipe (settings.clientPath origin) settings.permissions h' = (.error f, h'')) :
    openOn settings origin h = (.error f, h''.close i) := by
  simp only [openOn, connected, refused]

theorem openOn_made (connected : connect settings h = (.ok i, h'))
    (made : replacePipe (settings.clientPath origin) settings.permissions h' = (.ok (), h'')) :
    openOn settings origin h = (.ok { origin, path := settings.clientPath origin, toServer := some i }, h'') := by
  simp only [openOn, connected, made]

theorem send_closed (gone : c.toServer = none) : send m (c, h) = (.error .closed, c, h) := by
  simp only [send, gone]

theorem send_misfit (holds : c.toServer = some i) (unstamped : stampedFrame c.origin m = .error f) :
    send m (c, h) = (.error f, c, h) := by
  simp only [send, holds, unstamped]

theorem send_written (holds : c.toServer = some i) (stamped : stampedFrame c.origin m = .ok frame) :
    send m (c, h) = ((writeFrame i frame h).1, c, (writeFrame i frame h).2) := by
  simp only [send, holds, stamped]

theorem replyBegin_closed (closed : c.closed = true) : replyBegin (c, h) = (.error .closed, c, h) := by
  simp only [replyBegin, closed, ↓reduceIte]

section Beginning

variable (isOpen : c.closed = false)

include isOpen

theorem replyBegin_again (both : c.reader.isSome ∧ c.writer.isSome) : replyBegin (c, h) = (.ok (), c, h) := by
  simp only [replyBegin, isOpen, Bool.false_eq_true, ↓reduceIte, both, and_self]

variable (anew : ¬ (c.reader.isSome ∧ c.writer.isSome))

include anew

theorem replyBegin_unread (failed : h.openPath c.path .read false = (.error e, h')) :
    replyBegin (c, h) = (.error (.ofPipe "open" c.path e), c, h') := by
  simp only [replyBegin, isOpen, Bool.false_eq_true, ↓reduceIte, anew, failed]

theorem replyBegin_unwritten (reads : h.openPath c.path .read false = (.ok i, h'))
    (failed : h'.openPath c.path .write true = (.error e, h'')) :
    replyBegin (c, h) = (.error (.ofPipe "open" c.path e), c, h''.close i) := by
  simp only [replyBegin, isOpen, Bool.false_eq_true, ↓reduceIte, anew, reads, failed]

theorem replyBegin_opened (reads : h.openPath c.path .read false = (.ok i, h'))
    (writes : h'.openPath c.path .write true = (.ok j, h'')) :
    replyBegin (c, h) = (.ok (), { c with reader := some i, writer := some j }, h''.makeBlocking i) := by
  simp only [replyBegin, isOpen, Bool.false_eq_true, ↓reduceIte, anew, reads, writes]

end Beginning

theorem replyReceive_unbegun (unbegun : c.reader = none) : replyReceive (c, h) = (.error .noReplyChannel, c, h) := by
  simp only [replyReceive, unbegun]

section Receiving

variable (reads : c.reader = some i)

include reads

theorem replyReceive_failed (failed : h.read i Frame.size = (.error e, h')) :
    replyReceive (c, h) = (.error (.ofTransfer e), c, h') := by
  simp only [replyReceive, reads, failed]

theorem replyReceive_ended (ended : h.read i Frame.size = (.ok [], h')) :
    replyReceive (c, h) = (.error .peerClosed, c, h') := by
  simp only [replyReceive, reads, ended]

theorem replyReceive_given (given : h.read i Frame.size = (.ok (b :: bs), h')) :
    replyReceive (c, h) = (messageOfRead (b :: bs), c, h') := by
  simp only [replyReceive, reads, given]

theorem replyReceive_snd (h : Host) : (replyReceive (c, h)).2 = (c, (h.read i Frame.size).2) := by
  rcases read : h.read i Frame.size with ⟨e | ⟨_ | _⟩, h'⟩
  · rw [replyReceive_failed reads read]
  · rw [replyReceive_ended reads read]
  · rw [replyReceive_given reads read]

end Receiving

theorem close_closed (closed : c.closed = true) : close (c, h) = (c, h) := by
  simp only [close, closed, ↓reduceIte]

theorem close_open (isOpen : c.closed = false) :
    close (c, h) = ({ c with closed := true, toServer := none, reader := none, writer := none },
      ((closeHeld c.writer (closeHeld c.reader (closeHeld c.toServer h))).unlink c.path).2) := by
  simp only [close, isOpen, Bool.false_eq_true, ↓reduceIte]

end PipeClient

end DiscCatalog
