import ProbeLink.Console.Scene
import ProbeLink.Latch
import ProbeLink.Link.Desk
import ProbeLink.Link.FaultyPort
import ProbeLink.Link.Pipe
import ProbeLink.Link.Script
import ProbeLink.Link.Stream
import ProbeLink.Main
import ProbeLink.Rendezvous.Timeline
import ProbeLink.Proofs.Encoding
import ProbeLink.Proofs.Exchange
import ProbeLink.Proofs.Reading
import ProbeLink.Session.Conversation
import ProbeLink.Proofs.Histories
import ProbeLink.Proofs.Line
import ProbeLink.Proofs.Turns
import ProbeLink.Proofs.Smooth
import ProbeLink.Proofs.Dialogue
import ProbeLink.Proofs.Answers
import ProbeLink.Proofs.Repeats
import ProbeLink.Proofs.Holders
import ProbeLink.Proofs.Provenance
import ProbeLink.Proofs.Places
import ProbeLink.Proofs.Wire
import ProbeLink.Proofs.Parting
import ProbeLink.Proofs.Stopping
import ProbeLink.Proofs.Tally
import ProbeLink.Proofs.Ledger
import ProbeLink.Proofs.Desk
import ProbeLink.Proofs.Latching
import ProbeLink.Proofs.EndOfStream
import ProbeLink.Proofs.Disconnected
import ProbeLink.Proofs.Queueing
import ProbeLink.Proofs.Typing
import ProbeLink.Proofs.OutOfBand
import ProbeLink.Proofs.Spelling
import ProbeLink.Proofs.Checksums
import ProbeLink.Proofs.Dump
import ProbeLink.Proofs.Inquiry
import ProbeLink.Proofs.Numerals
import ProbeLink.Proofs.Words
import ProbeLink.Proofs.Phrases
import ProbeLink.Proofs.Figures
import ProbeLink.Proofs.Addresses
import ProbeLink.Proofs.Schemes
import ProbeLink.Proofs.Bodies
import ProbeLink.Proofs.Noise
import ProbeLink.Proofs.Misspelling
import ProbeLink.Proofs.Storage
import ProbeLink.Proofs.Offsets
