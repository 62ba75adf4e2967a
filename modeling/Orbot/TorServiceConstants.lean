import Orbot.Java.Text

/-! # Constants of the service

The values of `TorServiceConstants` that the modelled code reads.
-/

namespace Orbot

open Java (Text)

def torAppUsername : Text := "org.torproject.android".toList

def ipLocalhost : Text := "127.0.0.1".toList

def torTransproxyPortDefault : Int := 9040

def standardDnsPort : Int := 53

def torDnsPortDefault : Int := 5400

def httpProxyPortDefault : Int := 8118

def socksProxyPortDefault : Int := 9050

def binaryTorVersion : Text := "0.3.0.8-openssl1.0.2k-1".toList

/-- The `STATUS_` constants. -/
inductive Status where
  | off
  | on
  | starting
  | stopping
  deriving Repr, DecidableEq

end Orbot
